import MesonCheck.Catalogue.Builtin.Functions

/-! The methods of the build language, by receiver. -/
namespace MesonCheck.Builtin

def booleanMethods : List Callable := [
  ⟨"to_int", some "bool", [], [], [.int]⟩,
  ⟨"to_string", some "bool", [maybe [.str], maybe [.str]], [], [.str]⟩]

def bothLibrariesMethods : List Callable := [
  ⟨"get_shared_lib", some "both_libs", [], [], [library]⟩,
  ⟨"get_static_lib", some "both_libs", [], [], [library]⟩]

def buildMachineMethods : List Callable := [
  ⟨"cpu", some "build_machine", [], [], [.str]⟩,
  ⟨"cpu_family", some "build_machine", [], [], [.str]⟩,
  ⟨"endian", some "build_machine", [], [], [.str]⟩,
  ⟨"kernel", some "build_machine", [], [], [.str]⟩,
  ⟨"subsystem", some "build_machine", [], [], [.str]⟩,
  ⟨"system", some "build_machine", [], [], [.str]⟩]

def buildTargetMethods : List Callable := [
  ⟨"extract_all_objects", some "build_tgt", [], [allow "recursive" [.bool]], [extractedObjects]⟩,
  ⟨"extract_objects", some "build_tgt", [many [.str, fileObject]], [], [extractedObjects]⟩,
  ⟨"found", some "build_tgt", [], [], [.bool]⟩,
  ⟨"full_path", some "build_tgt", [], [], [.str]⟩,
  ⟨"name", some "build_tgt", [], [], [.str]⟩,
  ⟨"path", some "build_tgt", [], [], [.str]⟩,
  ⟨"private_dir_include", some "build_tgt", [], [], [includeDir]⟩]

def configDataMethods : List Callable := [
  ⟨"get", some "cfg_data", [one [.str], maybe [.bool, .int, .str]], [], [.bool, .int, .str]⟩,
  ⟨"get_unquoted", some "cfg_data", [one [.str], maybe [.bool, .int, .str]], [], [.bool, .int, .str]⟩,
  ⟨"has", some "cfg_data", [one [.str]], [], [.bool]⟩,
  ⟨"keys", some "cfg_data", [], [], [.list [.str]]⟩,
  ⟨"merge_from", some "cfg_data", [one [configData]], [], []⟩,
  ⟨"set", some "cfg_data", [one [.str], one [.bool, .int, .str]], [allow "description" [.str]], []⟩,
  ⟨"set10", some "cfg_data", [one [.str], one [.bool, .int]], [allow "description" [.str]], []⟩,
  ⟨"set_quoted", some "cfg_data", [one [.str], one [.str]], [allow "description" [.str]], []⟩]

def compilerMethods : List Callable := [
  ⟨"alignment", some "compiler", [one [.str]], [allow "args" [.list [.str]],
   allow "dependencies" [.list [dependency]], allow "prefix" [.list [.str], .str]], [.int]⟩,
  ⟨"check_header", some "compiler", [one [.str]], [allow "args" [.list [.str]],
   allow "dependencies" [.list [dependency]], allow "include_directories" [.list [.str, includeDir]],
   allow "prefix" [.list [.str], .str], allow "required" [.bool, feature]], [.bool]⟩,
  ⟨"cmd_array", some "compiler", [], [], [.list [.str]]⟩,
  ⟨"compiles", some "compiler", [one [.str, fileObject]], [allow "args" [.list [.str]],
   allow "dependencies" [.list [dependency]], allow "include_directories" [.list [.str, includeDir]],
   allow "name" [.str], allow "no_builtin_args" [.bool], allow "required" [.bool, feature]], [.bool]⟩,
  ⟨"find_library", some "compiler", [one [.str]], [allow "dirs" [.list [.str]], allow "disabler" [.bool],
   allow "has_headers" [.list [.str]], allow "required" [.bool, feature], allow "static" [.bool]], [dependency]⟩,
  ⟨"first_supported_argument", some "compiler", [many [.list [.str], .str]], [], [.list [.str]]⟩,
  ⟨"get_argument_syntax", some "compiler", [], [], [.str]⟩,
  ⟨"get_define", some "compiler", [one [.str]], [allow "args" [.list [.str]],
   allow "dependencies" [.list [dependency]], allow "include_directories" [.list [.str, includeDir]],
   allow "prefix" [.list [.str], .str]], [.str]⟩,
  ⟨"get_id", some "compiler", [], [], [.str]⟩,
  ⟨"get_linker_id", some "compiler", [], [], [.str]⟩,
  ⟨"get_supported_arguments", some "compiler", [many [.list [.str], .str]], [allow "checked" [.str]], [.list [.str]]⟩,
  ⟨"get_supported_link_arguments", some "compiler", [many [.list [.str], .str]], [], [.list [.str]]⟩,
  ⟨"has_argument", some "compiler", [one [.str]], [allow "required" [.bool, feature]], [.bool]⟩,
  ⟨"has_function", some "compiler", [one [.str]], [allow "args" [.list [.str]],
   allow "dependencies" [.list [dependency]], allow "include_directories" [.list [.str, includeDir]],
   allow "prefix" [.list [.str], .str], allow "required" [.bool, feature]], [.bool]⟩,
  ⟨"has_header", some "compiler", [one [.str]], [allow "args" [.list [.str]],
   allow "dependencies" [.list [dependency]], allow "include_directories" [.list [.str, includeDir]],
   allow "prefix" [.list [.str], .str], allow "required" [.bool, feature]], [.bool]⟩,
  ⟨"has_header_symbol", some "compiler", [one [.str], one [.str]], [allow "args" [.list [.str]],
   allow "dependencies" [.list [dependency]], allow "include_directories" [.list [.str, includeDir]],
   allow "prefix" [.list [.str], .str], allow "required" [.bool, feature]], [.bool]⟩,
  ⟨"has_link_argument", some "compiler", [one [.str]], [allow "required" [.bool, feature]], [.bool]⟩,
  ⟨"has_member", some "compiler", [one [.str], one [.str]], [allow "args" [.list [.str]],
   allow "dependencies" [.list [dependency]], allow "prefix" [.list [.str], .str], allow "required" [.bool, feature]],
   [.bool]⟩,
  ⟨"has_multi_arguments", some "compiler", [many [.str]], [allow "required" [.bool, feature]], [.bool]⟩,
  ⟨"has_type", some "compiler", [one [.str]], [allow "args" [.list [.str]], allow "dependencies" [.list [dependency]],
   allow "prefix" [.list [.str], .str], allow "required" [.bool, feature]], [.bool]⟩,
  ⟨"links", some "compiler", [one [.str, fileObject]], [allow "args" [.list [.str]],
   allow "dependencies" [.list [dependency]], allow "name" [.str], allow "required" [.bool, feature]], [.bool]⟩,
  ⟨"run", some "compiler", [one [.str, fileObject]], [allow "args" [.list [.str]],
   allow "dependencies" [.list [dependency]], allow "name" [.str]], [runResult]⟩,
  ⟨"sizeof", some "compiler", [one [.str]], [allow "args" [.list [.str]], allow "dependencies" [.list [dependency]],
   allow "prefix" [.list [.str], .str]], [.int]⟩,
  ⟨"symbols_have_underscore_prefix", some "compiler", [], [], [.bool]⟩,
  ⟨"version", some "compiler", [], [], [.str]⟩]

def customIndexMethods : List Callable := [
  ⟨"full_path", some "custom_idx", [], [], [.str]⟩]

def customTargetMethods : List Callable := [
  ⟨"full_path", some "custom_tgt", [], [], [.str]⟩,
  ⟨"to_list", some "custom_tgt", [], [], [.list [.customIndex]]⟩]

def dependencyMethods : List Callable := [
  ⟨"as_link_whole", some "dep", [], [], [dependency]⟩,
  ⟨"as_system", some "dep", [maybe [.str]], [], [dependency]⟩,
  ⟨"found", some "dep", [], [], [.bool]⟩,
  ⟨"get_configtool_variable", some "dep", [one [.str]], [], [.str]⟩,
  ⟨"get_pkgconfig_variable", some "dep", [one [.str]], [allow "default" [.str],
   allow "define_variable" [.list [.str]]], [.str]⟩,
  ⟨"get_variable", some "dep", [maybe [.str]], [allow "cmake" [.str], allow "configtool" [.str],
   allow "default_value" [.str], allow "internal" [.str], allow "pkgconfig" [.str],
   allow "pkgconfig_define" [.list [.str]]], [.str]⟩,
  ⟨"include_type", some "dep", [], [], [.str]⟩,
  ⟨"name", some "dep", [], [], [.str]⟩,
  ⟨"partial_dependency", some "dep", [], [allow "compile_args" [.bool], allow "includes" [.bool],
   allow "link_args" [.bool], allow "links" [.bool], allow "sources" [.bool]], [dependency]⟩,
  ⟨"type_name", some "dep", [], [], [.str]⟩,
  ⟨"version", some "dep", [], [], [.str]⟩]

def dictMethods : List Callable := [
  ⟨"get", some "dict", [one [.str], maybe [.any]], [], [.any]⟩,
  ⟨"has_key", some "dict", [one [.str]], [], [.bool]⟩,
  ⟨"keys", some "dict", [], [], [.list [.str]]⟩]

def disablerMethods : List Callable := [
  ⟨"found", some "disabler", [], [], [.bool]⟩]

def environmentMethods : List Callable := [
  ⟨"append", some "env", [one [.str], many [.str]], [allow "separator" [.str]], []⟩,
  ⟨"prepend", some "env", [one [.str], many [.str]], [allow "separator" [.str]], []⟩,
  ⟨"set", some "env", [one [.str], many [.str]], [allow "separator" [.str]], []⟩,
  ⟨"unset", some "env", [one [.str]], [], []⟩]

def externalProgramMethods : List Callable := [
  ⟨"found", some "external_program", [], [], [.bool]⟩,
  ⟨"full_path", some "external_program", [], [], [.str]⟩,
  ⟨"path", some "external_program", [], [], [.str]⟩,
  ⟨"version", some "external_program", [], [], [.str]⟩]

def featureMethods : List Callable := [
  ⟨"allowed", some "feature", [], [], [.bool]⟩,
  ⟨"auto", some "feature", [], [], [.bool]⟩,
  ⟨"disable_auto_if", some "feature", [one [.bool]], [], [feature]⟩,
  ⟨"disable_if", some "feature", [one [.bool]], [allow "error_message" [.str]], [feature]⟩,
  ⟨"disabled", some "feature", [], [], [.bool]⟩,
  ⟨"enable_auto_if", some "feature", [one [.bool]], [], [feature]⟩,
  ⟨"enable_if", some "feature", [one [.bool]], [allow "error_message" [.str]], [feature]⟩,
  ⟨"enabled", some "feature", [], [], [.bool]⟩,
  ⟨"require", some "feature", [one [.bool]], [allow "error_message" [.str]], [feature]⟩]

def fileObjectMethods : List Callable := [
  ⟨"full_path", some "file", [], [], [.str]⟩]

def generatorMethods : List Callable := [
  ⟨"process", some "generator", [many [.str, .customIndex, customTarget, fileObject, generatedList]],
   [allow "env" [.list [.str], .dict [.str], environment], allow "extra_args" [.list [.str]],
   allow "preserve_path_from" [.str]], [generatedList]⟩]

def integerMethods : List Callable := [
  ⟨"even", some "int", [], [], [.bool]⟩,
  ⟨"is_even", some "int", [], [], [.bool]⟩,
  ⟨"is_odd", some "int", [], [], [.bool]⟩,
  ⟨"to_string", some "int", [], [allow "fill" [.int]], [.str]⟩]

def listMethods : List Callable := [
  ⟨"contains", some "list", [one [.any]], [], [.bool]⟩,
  ⟨"get", some "list", [one [.int], maybe [.any]], [], [.any]⟩,
  ⟨"length", some "list", [], [], [.int]⟩]

def mesonObjectMethods : List Callable := [
  ⟨"add_devenv", some "meson", [one [.list [.str], .dict [.str], environment]], [allow "method" [.str],
   allow "separator" [.str]], []⟩,
  ⟨"add_dist_script", some "meson", [one [.str, executable, externalProgram, fileObject],
   many [.str, externalProgram, fileObject]], [], []⟩,
  ⟨"add_install_script", some "meson",
   [one [.str, .customIndex, customTarget, executable, externalProgram, fileObject],
   many [.str, .customIndex, externalProgram, fileObject, target]], [allow "install_tag" [.str],
   allow "skip_if_destdir" [.bool]], []⟩,
  ⟨"add_postconf_script", some "meson", [one [.str, externalProgram, fileObject],
   many [.str, externalProgram, fileObject]], [], []⟩,
  ⟨"backend", some "meson", [], [], [.str]⟩,
  ⟨"build_options", some "meson", [], [], [.str]⟩,
  ⟨"build_root", some "meson", [], [], [.str]⟩,
  ⟨"can_run_host_binaries", some "meson", [], [], [.bool]⟩,
  ⟨"current_build_dir", some "meson", [], [], [.str]⟩,
  ⟨"current_source_dir", some "meson", [], [], [.str]⟩,
  ⟨"get_compiler", some "meson", [one [.str]], [allow "native" [.bool]], [compiler]⟩,
  ⟨"get_cross_property", some "meson", [one [.str], maybe [.any]], [], [.any]⟩,
  ⟨"get_external_property", some "meson", [one [.str], maybe [.any]], [allow "native" [.bool]], [.any]⟩,
  ⟨"global_build_root", some "meson", [], [], [.str]⟩,
  ⟨"global_source_root", some "meson", [], [], [.str]⟩,
  ⟨"has_exe_wrapper", some "meson", [], [], [.bool]⟩,
  ⟨"has_external_property", some "meson", [one [.str]], [allow "native" [.bool]], [.bool]⟩,
  ⟨"install_dependency_manifest", some "meson", [one [.str]], [], []⟩,
  ⟨"is_cross_build", some "meson", [], [], [.bool]⟩,
  ⟨"is_subproject", some "meson", [], [], [.bool]⟩,
  ⟨"is_unity", some "meson", [], [], [.bool]⟩,
  ⟨"override_dependency", some "meson", [one [.str], one [dependency]], [allow "native" [.bool],
   allow "static" [.bool]], []⟩,
  ⟨"override_find_program", some "meson", [one [.str], one [executable, externalProgram, fileObject]], [], []⟩,
  ⟨"project_build_root", some "meson", [], [], [.str]⟩,
  ⟨"project_license", some "meson", [], [], [.list [.str]]⟩,
  ⟨"project_license_files", some "meson", [], [], [.list [fileObject]]⟩,
  ⟨"project_name", some "meson", [], [], [.str]⟩,
  ⟨"project_source_root", some "meson", [], [], [.str]⟩,
  ⟨"project_version", some "meson", [], [], [.str]⟩,
  ⟨"source_root", some "meson", [], [], [.str]⟩,
  ⟨"version", some "meson", [], [], [.str]⟩]

def moduleObjectMethods : List Callable := [
  ⟨"found", some "module", [], [], [.bool]⟩]

def runResultMethods : List Callable := [
  ⟨"compiled", some "runresult", [], [], [.bool]⟩,
  ⟨"returncode", some "runresult", [], [], [.int]⟩,
  ⟨"stderr", some "runresult", [], [], [.str]⟩,
  ⟨"stdout", some "runresult", [], [], [.str]⟩]

def textMethods : List Callable := [
  ⟨"contains", some "str", [one [.str]], [], [.bool]⟩,
  ⟨"endswith", some "str", [one [.str]], [], [.bool]⟩,
  ⟨"format", some "str", [many [.list [.bool, .int, .str], .dict [.bool, .int, .str], .bool, .int, .str]], [], [.str]⟩,
  ⟨"join", some "str", [many [.list [.str], .str]], [], [.str]⟩,
  ⟨"replace", some "str", [one [.str], one [.str]], [], [.str]⟩,
  ⟨"split", some "str", [maybe [.str]], [], [.list [.str]]⟩,
  ⟨"splitlines", some "str", [], [], [.list [.str]]⟩,
  ⟨"startswith", some "str", [one [.str]], [], [.bool]⟩,
  ⟨"strip", some "str", [maybe [.str]], [], [.str]⟩,
  ⟨"substring", some "str", [maybe [.int], maybe [.int]], [], [.str]⟩,
  ⟨"to_int", some "str", [], [], [.int]⟩,
  ⟨"to_lower", some "str", [], [], [.str]⟩,
  ⟨"to_upper", some "str", [], [], [.str]⟩,
  ⟨"underscorify", some "str", [], [], [.str]⟩,
  ⟨"version_compare", some "str", [one [.str]], [], [.bool]⟩]

def subprojectMethods : List Callable := [
  ⟨"found", some "subproject", [], [], [.bool]⟩,
  ⟨"get_variable", some "subproject", [one [.str], maybe [.any]], [], [.any]⟩]

def methods : List (String × List Callable) := [
  ("bool", booleanMethods),
  ("both_libs", bothLibrariesMethods),
  ("build_machine", buildMachineMethods),
  ("build_tgt", buildTargetMethods),
  ("cfg_data", configDataMethods),
  ("compiler", compilerMethods),
  ("custom_idx", customIndexMethods),
  ("custom_tgt", customTargetMethods),
  ("dep", dependencyMethods),
  ("dict", dictMethods),
  ("disabler", disablerMethods),
  ("env", environmentMethods),
  ("external_program", externalProgramMethods),
  ("feature", featureMethods),
  ("file", fileObjectMethods),
  ("generator", generatorMethods),
  ("int", integerMethods),
  ("list", listMethods),
  ("meson", mesonObjectMethods),
  ("module", moduleObjectMethods),
  ("runresult", runResultMethods),
  ("str", textMethods),
  ("subproject", subprojectMethods)]

end MesonCheck.Builtin
