import MesonCheck.Types.Basic

/-! The object types of the build language. -/
namespace MesonCheck.Builtin

def mesonObject : Ty := .object "meson" none

def buildMachine : Ty := .object "build_machine" none

def target : Ty := .object "tgt" none

def buildTarget : Ty := .object "build_tgt" (some target)

def library : Ty := .object "lib" (some buildTarget)

def bothLibraries : Ty := .object "both_libs" (some library)

def executable : Ty := .object "exe" (some buildTarget)

def jar : Ty := .object "jar" (some buildTarget)

def customTarget : Ty := .object "custom_tgt" (some target)

def runTarget : Ty := .object "run_tgt" (some target)

def aliasTarget : Ty := .object "alias_tgt" (some target)

def configData : Ty := .object "cfg_data" none

def compiler : Ty := .object "compiler" none

def dependency : Ty := .object "dep" none

def environment : Ty := .object "env" none

def externalProgram : Ty := .object "external_program" none

def extractedObjects : Ty := .object "extracted_obj" none

def feature : Ty := .object "feature" none

def fileObject : Ty := .object "file" none

def generatedList : Ty := .object "generated_list" none

def generator : Ty := .object "generator" none

def includeDir : Ty := .object "inc" none

def moduleObject : Ty := .object "module" none

def rangeObject : Ty := .object "range" none

def runResult : Ty := .object "runresult" none

def structuredSources : Ty := .object "structured_src" none

def types : List (String × Ty) :=
  [("alias_tgt", aliasTarget), ("both_libs", bothLibraries), ("build_machine", buildMachine), ("build_tgt",
   buildTarget), ("cfg_data", configData), ("compiler", compiler), ("custom_tgt", customTarget), ("dep", dependency),
   ("env", environment), ("exe", executable), ("external_program", externalProgram), ("extracted_obj",
   extractedObjects), ("feature", feature), ("file", fileObject), ("generated_list", generatedList), ("generator",
   generator), ("inc", includeDir), ("jar", jar), ("lib", library), ("meson", mesonObject), ("module", moduleObject),
   ("range", rangeObject), ("run_tgt", runTarget), ("runresult", runResult), ("structured_src", structuredSources),
   ("tgt", target)]

def globals : List (String × TypeSet) :=
  [("build_machine", [buildMachine]), ("host_machine", [buildMachine]), ("meson", [mesonObject]),
    ("target_machine", [buildMachine])]

end MesonCheck.Builtin
