import MesonCheck.Catalogue.Basic
import MesonCheck.Catalogue.Builtin.Methods

/-! The builtin catalogue. -/
namespace MesonCheck.Builtin

def deprecations : List Deprecation := [
  ⟨"<build_always>", ⟨0, 47, 0, "", ""⟩, ["<build_always_stale>", "<build_by_default>"]⟩,
  ⟨"build_tgt.path", ⟨0, 59, 0, "", ""⟩, ["build_tgt.full_path"]⟩,
  ⟨"dep.get_configtool_variable", ⟨0, 56, 0, "", ""⟩, ["dep.get_variable"]⟩,
  ⟨"dep.get_pkgconfig_variable", ⟨0, 56, 0, "", ""⟩, ["dep.get_variable"]⟩,
  ⟨"external_program.path", ⟨0, 55, 0, "", ""⟩, ["external_program.full_path"]⟩,
  ⟨"int.even", ⟨0, 38, 0, "", ""⟩, ["int.is_even"]⟩,
  ⟨"meson.build_root", ⟨0, 56, 0, "", ""⟩, ["meson.project_build_root", "meson.global_build_root"]⟩,
  ⟨"meson.get_cross_property", ⟨0, 58, 0, "", ""⟩, ["meson.get_external_property"]⟩,
  ⟨"meson.has_exe_wrapper", ⟨0, 55, 0, "", ""⟩, ["meson.can_run_host_binaries"]⟩,
  ⟨"meson.source_root", ⟨0, 56, 0, "", ""⟩, ["meson.project_source_root", "meson.global_source_root"]⟩]

def options : List BuildOption :=
  [⟨"auto_features", .feature, false⟩, ⟨"b_lto", .bool, false⟩, ⟨"b_ndebug", .combo, false⟩, ⟨"b_pie", .bool, false⟩,
   ⟨"b_sanitize", .combo, false⟩, ⟨"backend", .combo, false⟩, ⟨"bindir", .string, false⟩, ⟨"buildtype", .combo,
   false⟩, ⟨"c_args", .array, false⟩, ⟨"c_link_args", .array, false⟩, ⟨"c_std", .combo, false⟩, ⟨"cpp_args", .array,
   false⟩, ⟨"cpp_link_args", .array, false⟩, ⟨"cpp_std", .combo, false⟩, ⟨"datadir", .string, false⟩, ⟨"debug", .bool,
   false⟩, ⟨"default_library", .combo, false⟩, ⟨"includedir", .string, false⟩, ⟨"install_umask", .string, false⟩,
   ⟨"layout", .combo, false⟩, ⟨"libdir", .string, false⟩, ⟨"libexecdir", .string, false⟩, ⟨"localedir", .string,
   false⟩, ⟨"localstatedir", .string, false⟩, ⟨"mandir", .string, false⟩, ⟨"optimization", .combo, false⟩, ⟨"prefix",
   .string, false⟩, ⟨"sbindir", .string, false⟩, ⟨"sharedstatedir", .string, false⟩, ⟨"strip", .bool, false⟩,
   ⟨"sysconfdir", .string, false⟩, ⟨"unity", .combo, false⟩, ⟨"warning_level", .combo, false⟩, ⟨"werror", .bool,
   false⟩, ⟨"wrap_mode", .combo, false⟩]

def pureFunctions : List String :=
  ["disabler", "environment", "files", "generator", "get_variable", "import", "include_directories", "is_disabler",
   "is_variable", "join_paths", "structured_sources"]

def pureMethods : List String :=
  ["build_machine.cpu", "build_machine.cpu_family", "build_machine.endian", "build_machine.system", "meson.backend",
   "meson.build_options", "meson.build_root", "meson.can_run_host_binaries", "meson.current_build_dir",
   "meson.current_source_dir", "meson.get_cross_property", "meson.get_external_property", "meson.global_build_root",
   "meson.global_source_root", "meson.has_exe_wrapper", "meson.has_external_property", "meson.is_cross_build",
   "meson.is_subproject", "meson.is_unity", "meson.project_build_root", "meson.project_license",
   "meson.project_license_files", "meson.project_name", "meson.project_source_root", "meson.project_version",
   "meson.source_root", "meson.version", "both_libs.get_shared_lib", "both_libs.get_static_lib",
   "build_tgt.extract_all_objects", "build_tgt.extract_objects", "build_tgt.found", "build_tgt.full_path",
   "build_tgt.name", "build_tgt.path", "build_tgt.private_dir_include", "cfg_data.get", "cfg_data.get_unquoted",
   "cfg_data.has", "cfg_data.keys", "custom_idx.full_path", "custom_tgt.full_path", "custom_tgt.to_list",
   "dep.as_link_whole", "dep.as_system", "dep.found", "dep.get_configtool_variable", "dep.get_pkgconfig_variable",
   "dep.get_variable", "dep.include_type", "dep.name", "dep.partial_dependency", "dep.type_name", "dep.version",
   "disabler.found", "external_program.found", "external_program.full_path", "external_program.path",
   "external_program.version", "feature.allowed", "feature.auto", "feature.disabled", "feature.enabled",
   "module.found", "runresult.compiled", "runresult.returncode", "runresult.stderr", "runresult.stdout",
   "subproject.found", "subproject.get_variable", "str.contains", "str.endswith", "str.format", "str.join",
   "str.replace", "str.split", "str.startswith", "str.strip", "str.substring", "str.to_lower", "str.to_upper",
   "str.underscorify", "str.version_compare", "bool.to_int", "bool.to_string", "dict.get", "dict.has_key",
   "dict.keys", "int.even", "int.is_odd", "int.to_string", "list.contains", "list.get", "list.length"]

def compilerIds : List String :=
  ["arm", "armclang", "ccomp", "ccrx", "clang", "clang-cl", "dmd", "emscripten", "flang", "g95", "gcc", "intel",
   "intel-cl", "icc", "intel-llvm", "intel-llvm-cl", "lcc", "llvm", "mono", "msvc", "nagfor", "nvidia_hpc", "open64",
   "pathscale", "pgi", "rustc", "sun", "c2000", "ti", "valac", "xc16", "cython", "nasm", "yasm", "ml", "armasm",
   "mwasmarm", "mwasmeppc"]

def argumentSyntaxes : List String :=
  ["gcc", "msvc", "gnu", ""]

def linkerIds : List String :=
  ["ld.bfd", "ld.gold", "ld.lld", "ld.mold", "ld.solaris", "ld.wasm", "ld64", "ld64.lld", "link", "lld-link",
   "xilink", "optlink", "rlink", "xc16-ar", "ar2000", "ti-ar", "armlink", "pgi", "nvlink", "ccomp", "mwldarm",
   "mwldeppc"]

def cpuFamilies : List String :=
  ["aarch64", "alpha", "arc", "arm", "avr", "c2000", "csky", "dspic", "e2k", "ft32", "ia64", "loongarch64", "m68k",
   "microblaze", "mips", "mips32", "mips64", "msp430", "parisc", "pic24", "ppc", "ppc64", "riscv32", "riscv64",
   "rl78", "rx", "s390", "s390x", "sh4", "sparc", "sparc64", "wasm32", "wasm64", "x86", "x86_64"]

def osNames : List String :=
  ["android", "cygwin", "darwin", "dragonfly", "emscripten", "freebsd", "gnu", "haiku", "linux", "netbsd", "openbsd",
   "windows", "sunos"]

def names : NameSet → List String
  | .pureFunctions => pureFunctions
  | .pureMethods => pureMethods
  | .compilerIds => compilerIds
  | .argumentSyntaxes => argumentSyntaxes
  | .linkerIds => linkerIds
  | .cpuFamilies => cpuFamilies
  | .osNames => osNames

end MesonCheck.Builtin

namespace MesonCheck

def Catalogue.builtin : Catalogue :=
  ⟨Builtin.types, Builtin.globals, Builtin.functions, Builtin.methods, Builtin.deprecations, Builtin.options,
    Builtin.names⟩

end MesonCheck
