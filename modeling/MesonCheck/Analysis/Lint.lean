import MesonCheck.Analysis.Arguments
import MesonCheck.Analysis.Run
import MesonCheck.Analysis.Setting
import MesonCheck.Text.Blank
import MesonCheck.Text.LetterCase
import MesonCheck.Text.Placeholder
import MesonCheck.Text.Split

/-! Lints of single statements and expressions. -/
namespace MesonCheck

def Node.isTerminating : Node → Bool
  | .call _ callee _ _ => callee.name == "error" || callee.name == "subdir_done"
  | _ => false

def deadCode? (statements : List Node) : Option Finding :=
  Finding.across? ((statements.dropWhile (!·.isTerminating)).tail.map Node.site) .deadCode

def Run.isIdle (cx : Setting) (r : Run) : Node → Bool
  | .int .. | .str .. | .bool .. | .array .. | .dict .. => true
  | .call _ callee _ _ => cx.catalogue.knows .pureFunctions callee.name
  | .method s _ _ _ _ => ((r.callAt? s).map fun f => cx.catalogue.knows .pureMethods f.id).getD false
  | _ => false

def isMixedCase (name : String) : Bool :=
  name.toList.any Text.isUpper && name.toList.any Text.isLower

def Run.checkName (cx : Setting) (id : Ident) (r : Run) : Run :=
  r.reportIf (!cx.lints.skipNames && isMixedCase id.name) (.about id.site .mixedCase)

def Run.checkBool (s : Site) (ts : TypeSet) (r : Run) : Run :=
  r.reportIf (!(ts.isEmpty || ts.has .any || ts.has .bool || ts.has .disabler)) (.about s (.notBool ts))

def resultNames? : String → Option NameSet
  | "compiler.get_id" => some .compilerIds
  | "compiler.get_argument_syntax" => some .argumentSyntaxes
  | "compiler.get_linker_id" => some .linkerIds
  | "build_machine.cpu_family" => some .cpuFamilies
  | "build_machine.system" => some .osNames
  | _ => none

def Run.checkResult (cx : Setting) (method text : Site) (value : String) (r : Run) : Run :=
  match (r.callAt? method).bind fun f => resultNames? f.id with
  | some names =>
    r.reportIf (cx.lints.checks names && !cx.catalogue.knows names value) (.about text (.unknownName names))
  | none => r

def Run.checkComparison (cx : Setting) (op : Operator) (left right : Node) (r : Run) : Run :=
  if op = .equal ∨ op = .notEqual then
    match left, right with
    | .method m _ _ _ _, .str s t _ => r.checkResult cx m s t
    | .method .., _ => r
    | .str s t _, .method m _ _ _ _ => r.checkResult cx m s t
    | _, _ => r
  else r

def unusedParameters (text : String) : Nat → List Argument → List Finding
  | _, [] => []
  | i, a :: as =>
    if Text.contains text (Text.placeholder i) then unusedParameters text (i + 1) as
    else a.finding .unusedParameter :: unusedParameters text (i + 1) as

def formatFindings (call text : Site) (value : String) (args : List Argument) : List Finding :=
  unusedParameters value 0 args ++
    match Text.indicesFrom args.length value with
    | [] => if args.isEmpty then [.about call .pointlessFormat] else []
    | is => [.about text (.parametersOutOfBounds is)]

def Run.checkPlaceholders (s : Site) (value : String) (r : Run) : Run :=
  (Text.placeholderNames value).foldl
    (fun r name => (r.use name).reportIf (r.misses name) (.about s (.unknownPlaceholder name))) r

def Run.checkDeprecated (cx : Setting) (callee : Ident) (f : Callable) (r : Run) : Run :=
  match cx.catalogue.deprecated? f.id r.version with
  | some alternatives => r.report (.about callee.site (.deprecatedCallable f.id alternatives))
  | none => r

def bareKeyword (s : String) : String :=
  String.ofList (Text.trimChars (fun c => c = '<' || c = '>') s.toList)

def Run.checkKeyword (cx : Setting) (key : Ident) (r : Run) : Run :=
  if key.name = "" then r
  else
    match cx.catalogue.deprecated? ("<" ++ key.name ++ ">") r.version with
    | some alternatives =>
      r.report (.about key.site (.deprecatedKeyword key.name (alternatives.map bareKeyword)))
    | none => r

def Run.settle (cx : Setting) (ds : List Debt) (r : Run) : Run :=
  ds.foldl (fun r d => r.reportIf (!cx.provides.contains d.name && !d.isExempt) (.about d.site .unusedAssignment)) r

end MesonCheck
