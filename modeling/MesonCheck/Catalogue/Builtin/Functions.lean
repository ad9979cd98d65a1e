import MesonCheck.Catalogue.Builtin.Types
import MesonCheck.Catalogue.Callable

/-! The functions of the build language. -/
namespace MesonCheck.Builtin

def one (s : TypeSet) : Param := ⟨s, false, false⟩

def maybe (s : TypeSet) : Param := ⟨s, true, false⟩

def many (s : TypeSet) : Param := ⟨s, false, true⟩

def allow (n : String) (s : TypeSet) : String × Keyword := (n, ⟨s, false⟩)

def need (n : String) (s : TypeSet) : String × Keyword := (n, ⟨s, true⟩)

def insertKeyword (k : String × Keyword) : List (String × Keyword) → List (String × Keyword)
  | [] => [k]
  | l :: ls => if k.1 < l.1 then k :: l :: ls else l :: insertKeyword k ls

def sortKeywords (ks : List (String × Keyword)) : List (String × Keyword) :=
  ks.foldr insertKeyword []

def targetKeywords : List (String × Keyword) :=
  [allow "build_by_default" [.bool], allow "c_args" [.list [.str]], allow "cpp_args" [.list [.str]],
   allow "d_import_dirs" [.list [.str, includeDir]], allow "dependencies" [.list [dependency]],
   allow "extra_files" [.list [.str, .customIndex, customTarget, fileObject]], allow "gnu_symbol_visibility" [.str],
   allow "gui_app" [.bool], allow "implicit_include_directories" [.bool],
   allow "include_directories" [.list [.str, includeDir]], allow "install" [.bool],
   allow "install_dir" [.list [.bool, .str], .bool, .str], allow "install_mode" [.list [.int, .str]],
   allow "install_rpath" [.str], allow "install_tag" [.str], allow "link_args" [.list [.str]],
   allow "link_depends" [.list [.str, .customIndex, customTarget, fileObject]], allow "link_language" [.str],
   allow "link_whole" [.list [.customIndex, customTarget, library]],
   allow "link_with" [.list [.customIndex, customTarget, library]], allow "name_prefix" [.list [.str], .str],
   allow "name_suffix" [.list [.str], .str], allow "native" [.bool],
   allow "objects" [.list [.str, extractedObjects, fileObject]],
   allow "override_options" [.list [.str], .dict [.bool, .int, .str]], allow "pic" [.bool],
   allow "rust_crate_type" [.str],
   allow "sources" [.list [.str, .customIndex, customTarget, fileObject, generatedList, structuredSources]],
   allow "win_subsystem" [.str]]

def libraryKeywords : List (String × Keyword) :=
  sortKeywords (targetKeywords ++ [allow "darwin_versions" [.list [.str], .int, .str], allow "pie" [.bool],
   allow "soversion" [.int, .str], allow "version" [.str],
   allow "vs_module_defs" [.str, .customIndex, customTarget, fileObject]])

def testKeywords : List (String × Keyword) :=
  [allow "args" [.list [.str, externalProgram, fileObject, target]],
   allow "depends" [.list [buildTarget, customTarget]], allow "env" [.list [.str], .dict [.str], environment],
   allow "priority" [.int], allow "protocol" [.str], allow "should_fail" [.bool], allow "suite" [.list [.str], .str],
   allow "timeout" [.int], allow "workdir" [.str]]

def sourceTypes : TypeSet :=
  [.list [.str, .customIndex, customTarget, fileObject, generatedList], .str, .customIndex, customTarget, fileObject,
   generatedList, structuredSources]

def functions : List Callable := [
  ⟨"add_global_arguments", none, [many [.str]], [need "language" [.list [.str]], allow "native" [.bool]], []⟩,
  ⟨"add_global_link_arguments", none, [many [.str]], [need "language" [.list [.str]], allow "native" [.bool]], []⟩,
  ⟨"add_languages", none, [many [.list [.str], .str]], [allow "native" [.bool], allow "required" [.bool, feature]],
   [.bool]⟩,
  ⟨"add_project_arguments", none, [many [.str]], [need "language" [.list [.str]], allow "native" [.bool]], []⟩,
  ⟨"add_project_dependencies", none, [many [dependency]], [need "language" [.list [.str]], allow "native" [.bool]],
   []⟩,
  ⟨"add_project_link_arguments", none, [many [.str]], [need "language" [.list [.str]], allow "native" [.bool]], []⟩,
  ⟨"add_test_setup", none, [one [.str]], [allow "env" [.list [.str], .dict [.str], environment],
   allow "exclude_suites" [.list [.str]], allow "exe_wrapper" [.list [.str, externalProgram]], allow "gdb" [.bool],
   allow "is_default" [.bool], allow "timeout_multiplier" [.int]], []⟩,
  ⟨"alias_target", none, [one [.str], many [target]], [], [aliasTarget]⟩,
  ⟨"assert", none, [one [.bool], maybe [.str]], [], []⟩,
  ⟨"benchmark", none, [one [.str], one [.customIndex, customTarget, executable, externalProgram, fileObject, jar]],
   testKeywords, []⟩,
  ⟨"both_libraries", none, [one [.str], many sourceTypes], libraryKeywords, [bothLibraries]⟩,
  ⟨"build_target", none, [one [.str], many sourceTypes], (sortKeywords (libraryKeywords ++
   [need "target_type" [.str]])), [buildTarget]⟩,
  ⟨"configuration_data", none, [maybe [.dict [.bool, .int, .str]]], [], [configData]⟩,
  ⟨"configure_file", none, [], [allow "capture" [.bool],
   allow "command" [.list [.str, executable, externalProgram, fileObject]],
   allow "configuration" [.dict [.bool, .int, .str], configData], allow "copy" [.bool], allow "depfile" [.str],
   allow "encoding" [.str], allow "format" [.str], allow "input" [.list [.str, fileObject], .str, fileObject],
   allow "install" [.bool], allow "install_dir" [.bool, .str], allow "install_mode" [.list [.int, .str]],
   allow "install_tag" [.str], need "output" [.str], allow "output_format" [.str]], [fileObject]⟩,
  ⟨"custom_target", none, [maybe [.str]], [allow "build_always" [.bool], allow "build_always_stale" [.bool],
   allow "build_by_default" [.bool], allow "capture" [.bool],
   need "command" [.list [.str, .customIndex, customTarget, executable, externalProgram, fileObject, jar]],
   allow "console" [.bool], allow "depend_files" [.list [.str, fileObject]],
   allow "depends" [.list [buildTarget, customTarget]], allow "depfile" [.str],
   allow "env" [.list [.str], .dict [.str], environment], allow "feed" [.bool],
   allow "input" [.list [.str, .customIndex, customTarget, extractedObjects, fileObject, generatedList]],
   allow "install" [.bool], allow "install_dir" [.list [.bool, .str], .bool, .str],
   allow "install_mode" [.list [.int, .str]], allow "install_tag" [.list [.str]], need "output" [.list [.str]]],
   [customTarget]⟩,
  ⟨"declare_dependency", none, [], [allow "compile_args" [.list [.str]],
   allow "d_import_dirs" [.list [.str, includeDir]], allow "d_module_versions" [.list [.int, .str]],
   allow "dependencies" [.list [dependency]], allow "extra_files" [.list [.str, fileObject]],
   allow "include_directories" [.list [.str, includeDir]], allow "link_args" [.list [.str]],
   allow "link_whole" [.list [library]], allow "link_with" [.list [library]],
   allow "objects" [.list [extractedObjects]],
   allow "sources" [.list [.str, .customIndex, customTarget, fileObject, generatedList]],
   allow "variables" [.list [.str], .dict [.str]], allow "version" [.str]], [dependency]⟩,
  ⟨"dependency", none, [many [.str]], [allow "allow_fallback" [.bool], allow "cmake_args" [.list [.str]],
   allow "cmake_module_path" [.list [.str]], allow "components" [.list [.str]],
   allow "default_options" [.list [.str], .dict [.bool, .int, .str]], allow "disabler" [.bool],
   allow "fallback" [.list [.str], .str], allow "include_type" [.str], allow "language" [.str], allow "main" [.bool],
   allow "method" [.str], allow "modules" [.list [.str]], allow "native" [.bool], allow "not_found_message" [.str],
   allow "required" [.bool, feature], allow "static" [.bool], allow "version" [.list [.str], .str]], [dependency]⟩,
  ⟨"disabler", none, [], [], [.disabler]⟩,
  ⟨"environment", none, [maybe [.list [.str], .dict [.list [.str], .str], .str]], [allow "method" [.str],
   allow "separator" [.str]], [environment]⟩,
  ⟨"error", none, [many [.any]], [], []⟩,
  ⟨"executable", none, [one [.str], many sourceTypes], (sortKeywords (targetKeywords ++
   [allow "export_dynamic" [.bool], allow "implib" [.bool, .str], allow "pie" [.bool]])), [executable]⟩,
  ⟨"files", none, [many [.str]], [], [.list [fileObject]]⟩,
  ⟨"find_program", none, [many [.str, fileObject]], [allow "dirs" [.list [.str]], allow "disabler" [.bool],
   allow "native" [.bool], allow "required" [.bool, feature], allow "version" [.list [.str], .str]],
   [externalProgram]⟩,
  ⟨"generator", none, [one [executable, externalProgram, jar]], [need "arguments" [.list [.str]],
   allow "capture" [.bool], allow "depends" [.list [buildTarget, customTarget]], allow "depfile" [.str],
   need "output" [.list [.str]]], [generator]⟩,
  ⟨"get_option", none, [one [.str]], [], [.list [.bool, .int, .str], .bool, .int, .str, feature]⟩,
  ⟨"get_variable", none, [one [.str], maybe [.any]], [], [.any]⟩,
  ⟨"import", none, [one [.str]], [allow "disabler" [.bool], allow "required" [.bool, feature]], [moduleObject]⟩,
  ⟨"include_directories", none, [many [.str, includeDir]], [allow "is_system" [.bool]], [includeDir]⟩,
  ⟨"install_data", none, [many [.str, fileObject]], [allow "follow_symlinks" [.bool], allow "install_dir" [.str],
   allow "install_mode" [.list [.int, .str]], allow "install_tag" [.str], allow "preserve_path" [.bool],
   allow "rename" [.list [.str]], allow "sources" [.list [.str, fileObject]]], []⟩,
  ⟨"install_emptydir", none, [many [.str]], [allow "install_mode" [.list [.int, .str]], allow "install_tag" [.str]],
   []⟩,
  ⟨"install_headers", none, [many [.str, fileObject]], [allow "follow_symlinks" [.bool], allow "install_dir" [.str],
   allow "install_mode" [.list [.int, .str]], allow "preserve_path" [.bool], allow "subdir" [.str]], []⟩,
  ⟨"install_man", none, [many [.str, fileObject]], [allow "install_dir" [.str],
   allow "install_mode" [.list [.int, .str]], allow "locale" [.str]], []⟩,
  ⟨"install_subdir", none, [one [.str]], [allow "exclude_directories" [.list [.str]],
   allow "exclude_files" [.list [.str]], allow "follow_symlinks" [.bool], need "install_dir" [.str],
   allow "install_mode" [.list [.int, .str]], allow "install_tag" [.str], allow "strip_directory" [.bool]], []⟩,
  ⟨"install_symlink", none, [one [.str]], [need "install_dir" [.str], allow "install_tag" [.str],
   need "pointing_to" [.str]], []⟩,
  ⟨"is_disabler", none, [one [.any]], [], [.bool]⟩,
  ⟨"is_variable", none, [one [.str]], [], [.bool]⟩,
  ⟨"jar", none, [one [.str],
   many [.list [.str, .customIndex, customTarget, fileObject, generatedList], .str, .customIndex, customTarget,
    fileObject, generatedList]],
   (sortKeywords (targetKeywords ++ [allow "java_resources" [structuredSources], allow "main_class" [.str]])), [jar]⟩,
  ⟨"join_paths", none, [many [.str]], [], [.str]⟩,
  ⟨"library", none, [one [.str], many sourceTypes], libraryKeywords, [library]⟩,
  ⟨"message", none, [many [.list [.bool, .int, .str], .dict [.bool, .int, .str], .bool, .int, .str]], [], []⟩,
  ⟨"project", none, [one [.str], many [.list [.str], .str]],
   [allow "default_options" [.list [.str], .dict [.bool, .int, .str]], allow "license" [.list [.str], .str],
   allow "license_files" [.list [.str], .str], allow "meson_version" [.str], allow "subproject_dir" [.str],
   allow "version" [.str, fileObject]], []⟩,
  ⟨"range", none, [one [.int], maybe [.int], maybe [.int]], [], [rangeObject]⟩,
  ⟨"run_command", none, [many [.str, executable, externalProgram, fileObject]], [allow "capture" [.bool],
   allow "check" [.bool], allow "env" [.list [.str], .dict [.str], environment]], [runResult]⟩,
  ⟨"run_target", none, [one [.str]],
   [need "command" [.list [.str, customTarget, executable, externalProgram, fileObject]],
   allow "depends" [.list [buildTarget, customTarget]], allow "env" [.list [.str], .dict [.str], environment]],
   [runTarget]⟩,
  ⟨"set_variable", none, [one [.str], one [.any]], [], []⟩,
  ⟨"shared_library", none, [one [.str], many sourceTypes], libraryKeywords, [library]⟩,
  ⟨"shared_module", none, [one [.str], many sourceTypes], libraryKeywords, [buildTarget]⟩,
  ⟨"static_library", none, [one [.str], many sourceTypes], (sortKeywords (libraryKeywords ++
   [allow "prelink" [.bool]])), [library]⟩,
  ⟨"structured_sources", none, [one [.list [.str, .customIndex, customTarget, fileObject, generatedList]],
   maybe [.dict [.str, .customIndex, customTarget, fileObject, generatedList]]], [], [structuredSources]⟩,
  ⟨"subdir", none, [one [.str]], [allow "if_found" [.list [dependency]]], []⟩,
  ⟨"subdir_done", none, [], [], []⟩,
  ⟨"subproject", none, [one [.str]], [allow "default_options" [.list [.str], .dict [.bool, .int, .str]],
   allow "required" [.bool, feature], allow "version" [.str]], [.subproject []]⟩,
  ⟨"summary", none, [one [.dict [.any], .str], maybe [.any]], [allow "bool_yn" [.bool], allow "list_sep" [.str],
   allow "section" [.str]], []⟩,
  ⟨"test", none, [one [.str], one [.customIndex, customTarget, executable, externalProgram, fileObject, jar]],
   (sortKeywords (testKeywords ++ [allow "is_parallel" [.bool], allow "verbose" [.bool]])), []⟩,
  ⟨"unset_variable", none, [one [.str]], [], []⟩,
  ⟨"vcs_tag", none, [], [allow "command" [.list [.str, externalProgram, fileObject]], allow "fallback" [.str],
   need "input" [.str, fileObject], need "output" [.str], allow "replace_string" [.str]], [customTarget]⟩,
  ⟨"warning", none, [many [.list [.bool, .int, .str], .dict [.bool, .int, .str], .bool, .int, .str]], [], []⟩]

end MesonCheck.Builtin
