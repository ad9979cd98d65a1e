import MesonCheck.Text.Blank
import MesonCheck.Text.LetterCase
import MesonCheck.Text.Letters
import MesonCheck.Text.Placeholder
import MesonCheck.Text.Sorted
import MesonCheck.Text.Split
import MesonCheck.Tree.Node

/-! Guesses at the texts that an expression can evaluate to: from literals, assignments anywhere in the same file, loops
over literals, and a few operations on texts. A guess has no answer, `none`, when loops take their values from each
other in a circle. -/
namespace MesonCheck.Guess

def depthLimit : Nat := 6

def valueLimit : Nat := 64

def capped (vs : List String) : List String :=
  vs.take valueLimit

def product (sep : String) (ls rs : List String) : List String :=
  capped (ls.flatMap fun l => rs.map fun r => l ++ sep ++ r)

def mapChars (f : Char → Char) (s : String) : String :=
  String.ofList (s.toList.map f)

def underscorify (s : String) : String :=
  mapChars (fun c => if Text.isLetter c || Text.isDecimalDigit c then c else '_') s

def fill (i : Nat) (values texts : List String) : List String :=
  if values.isEmpty then texts
  else capped (texts.flatMap fun s => values.map fun v => Text.replaceAll s (Text.placeholder i) v)

def unlessFull (go : List String → Option (List String)) (found : List String) : Option (List String) :=
  if found.length < valueLimit then go found else some found

mutual
/-- Collects what `source` says of the assignments and loops in a node. Once the limit is reached, nothing below a node
is looked at, but its siblings still are. -/
def gather (source : Node → Option (List String)) (n : Node) (found : List String) : Option (List String) :=
  match n with
  | .array _ es => unlessFull (gatherAll source es) found
  | .dict _ es => unlessFull (gatherEntries source es) found
  | .call _ _ _ as => unlessFull (gatherAll source as) found
  | .method _ recv _ _ as =>
    -- the list of arguments is a node of its own, and the receiver may have reached the limit
    unlessFull (fun found => (gather source recv found).bind (unlessFull (gatherAll source as))) found
  | .keyword _ _ v => unlessFull (gather source v) found
  | .index _ a b => unlessFull (fun found => (gather source a found).bind (gather source b)) found
  | .binary _ _ a b => unlessFull (fun found => (gather source a found).bind (gather source b)) found
  | .unary _ _ x => unlessFull (gather source x) found
  | .ternary _ c y z =>
    unlessFull (fun found => ((gather source c found).bind (gather source y)).bind (gather source z)) found
  | .assign s op t v =>
    (source (.assign s op t v)).bind fun vs =>
      unlessFull (fun found => (gather source t found).bind (gather source v)) (found ++ vs)
  | .select _ bs => unlessFull (gatherBranches source bs) found
  | .loop s ids subject body =>
    (source (.loop s ids subject body)).bind fun vs =>
      unlessFull (fun found => (gather source subject found).bind (gatherAll source body)) (found ++ vs)
  | _ => some found

def gatherAll (source : Node → Option (List String)) (ns : List Node) (found : List String) :
    Option (List String) :=
  match ns with
  | [] => some found
  | n :: ns => (gather source n found).bind (gatherAll source ns)

def gatherEntries (source : Node → Option (List String)) (es : List Entry) (found : List String) :
    Option (List String) :=
  match es with
  | [] => some found
  | .mk _ k v :: es =>
    (unlessFull (fun found => (gather source k found).bind (gather source v)) found).bind (gatherEntries source es)

def gatherBranches (source : Node → Option (List String)) (bs : List Branch) (found : List String) :
    Option (List String) :=
  match bs with
  | [] => some found
  | .guarded c body :: bs =>
    ((gather source c found).bind (gatherAll source body)).bind (gatherBranches source bs)
  | .otherwise body :: bs => (gatherAll source body found).bind (gatherBranches source bs)
end

mutual
def spots : Node → List Node
  | .array _ es => spotsAll es
  | .dict _ es => spotsEntries es
  | .call _ _ _ as => spotsAll as
  | .method _ recv _ _ as => spots recv ++ spotsAll as
  | .keyword _ _ v => spots v
  | .index _ a b => spots a ++ spots b
  | .binary _ _ a b => spots a ++ spots b
  | .unary _ _ x => spots x
  | .ternary _ c y z => spots c ++ spots y ++ spots z
  | .assign s op t v => .assign s op t v :: (spots t ++ spots v)
  | .select _ bs => spotsBranches bs
  | .loop s ids subject body => .loop s ids subject body :: (spots subject ++ spotsAll body)
  | _ => []

def spotsAll : List Node → List Node
  | [] => []
  | n :: ns => spots n ++ spotsAll ns

def spotsEntries : List Entry → List Node
  | [] => []
  | .mk _ k v :: es => spots k ++ spots v ++ spotsEntries es

def spotsBranches : List Branch → List Node
  | [] => []
  | .guarded c body :: bs => spots c ++ spotsAll body ++ spotsBranches bs
  | .otherwise body :: bs => spotsAll body ++ spotsBranches bs
end

def concat {α : Type} (value : α → Option (List String)) : List α → Option (List String)
  | [] => some []
  | a :: as => (value a).bind fun vs => (concat value as).map (vs ++ ·)

/-- All ways to join one value of each part. As soon as a part has no value there are none. -/
def joined (value : Node → Option (List String)) (sep : String) : Option (List String) → List Node →
    Option (List String)
  | sofar, [] => some (sofar.getD [])
  | sofar, n :: ns =>
    (value n).bind fun vs =>
      if vs.isEmpty then some []
      else joined value sep (some (match sofar with
        | none => vs
        | some us => product sep us vs)) ns

def formatted (value : Node → Option (List String)) : Nat → List Node → List String → Option (List String)
  | _, [], texts => some texts
  | i, n :: ns, texts => (value n).bind fun vs => formatted value (i + 1) ns (fill i vs texts)

def methodValues (value : Node → Option (List String)) (name : String) (args : List Node) (texts : List String) :
    Option (List String) :=
  match name with
  | "underscorify" => some (texts.map underscorify)
  | "to_lower" => some (texts.map (mapChars Text.toLower))
  | "to_upper" => some (texts.map (mapChars Text.toUpper))
  | "strip" => some (texts.map Text.trimBlank)
  | "join" =>
    match args with
    | [.array _ es] => (concat (fun sep => joined value sep none es) texts).map capped
    | _ => some []
  | "format" => formatted value 0 args texts
  | _ => some []

/-- What an identifier of a loop over `subject` stands for: an element of a literal list, a key or value of a literal
dict, or an element of a variable with values that `named` knows. A lone identifier is the only one of its loop. -/
def subjectValues (value : Node → Option (List String)) (named : String → Option (List String)) (name : String)
    (isLone isFirst : Bool) : Node → Option (List String)
  | .array s es => if isLone then value (.array s es) else some []
  | .dict _ es => concat value (es.map fun e => if isFirst then e.key else e.value)
  | .ident other => if isLone ∧ other.name ≠ name then named other.name else some []
  | _ => some []

def loopValues (here : Bool → Option (List String)) (name : String) : Bool → List Ident → Option (List String)
  | _, [] => some []
  | isFirst, id :: ids =>
    (if id.name = name then here isFirst else some []).bind fun vs =>
      (loopValues here name false ids).map (vs ++ ·)

def sourceValues (value : Node → Option (List String)) (named : String → Option (List String)) (name : String) :
    Node → Option (List String)
  | .assign _ .assign (.ident id) v => if id.name = name then value v else some []
  | .loop _ ids subject _ =>
    loopValues (fun isFirst => subjectValues value named name (ids.length = 1) isFirst subject) name true ids
  | _ => some []

def evaluate (part : Node → Option (List String)) (named : String → Option (List String)) :
    Node → Option (List String)
  | .str _ t _ => some [t]
  | .array _ es => (concat part es).map capped
  | .ternary _ _ y z => (part y).bind fun ys => (part z).map fun zs => capped (ys ++ zs)
  | .binary _ (some .plus) l r => (part l).bind fun ls => (part r).map (product "" ls)
  | .binary _ (some .divide) l r => (part l).bind fun ls => (part r).map (product "/" ls)
  | .ident id => named id.name
  | .call _ callee _ args => if callee.name = "join_paths" then joined part "/" none args else some []
  | .method _ recv callee _ args => (part recv).bind (methodValues part callee.name args)
  | _ => some []

def scan (value : Node → Option (List String)) (named : String → Option (List String)) (statements : List Node)
    (name : String) : Option (List String) :=
  (gatherAll (sourceValues value named name) statements []).map capped

mutual
def values (statements : List Node) : Nat → Node → Nat → Option (List String)
  | 0, _, _ => none
  | fuel + 1, n, depth =>
    if depthLimit < depth then some []
    else evaluate (fun m => values statements fuel m (depth + 1))
      (fun x => variableValues statements fuel x depth) n

def variableValues (statements : List Node) : Nat → String → Nat → Option (List String)
  | 0, _, _ => none
  | fuel + 1, name, depth =>
    scan (fun m => values statements fuel m (depth + 1)) (fun x => variableValues statements fuel x (depth + 1))
      statements name
end

def loopNames (statements : List Node) : List String :=
  (spotsAll statements).filterMap fun
    | .loop _ [id] (.ident _) _ => some id.name
    | _ => none

/-- Enough for every guess that has an answer: up to the depth limit a name and an expression take turns, and from there
on only names of loops follow each other. -/
def fuelFor (statements : List Node) : Nat :=
  2 * depthLimit + 3 + (loopNames statements).length

end Guess

def SourceFile.statements (f : SourceFile) : List Node :=
  (f.body.map (·.statements)).getD []

def SourceFile.guess (f : SourceFile) (n : Node) : Option (List String) :=
  (Guess.values f.statements (Guess.fuelFor f.statements) n 0).map Text.sortedUnique

end MesonCheck
