import MesonCheck.Tree.Node

/-! Numbers for the nodes of a tree, given in the order in which the nodes are written. The analysis keeps what it
learns about a node under its number. -/
namespace MesonCheck

def Site.numbered (s : Site) (n : Nat) : Site := { s with slot := n }

def Ident.numbered (id : Ident) (n : Nat) : Ident := { id with site := id.site.numbered n }

def Ident.numberedAll : List Ident → Nat → List Ident × Nat
  | [], n => ([], n)
  | id :: ids, n =>
    let (rest, n') := Ident.numberedAll ids (n + 1)
    (id.numbered n :: rest, n')

mutual
def Node.numbered : Node → Nat → Node × Nat
  | .int s v, n => (.int (s.numbered n) v, n + 1)
  | .str s t f, n => (.str (s.numbered n) t f, n + 1)
  | .bool s v, n => (.bool (s.numbered n) v, n + 1)
  | .array s es, n =>
    let (es, n') := Node.numberedAll es (n + 1)
    (.array (s.numbered n) es, n')
  | .dict s es, n =>
    let (es, n') := Entry.numberedAll es (n + 1)
    (.dict (s.numbered n) es, n')
  | .ident id, n => (.ident (id.numbered n), n + 1)
  | .call s callee argSite as, n =>
    let (as, n') := Node.numberedAll as (n + 3)
    (.call (s.numbered n) (callee.numbered (n + 1)) (argSite.numbered (n + 2)) as, n')
  | .method s r callee argSite as, n =>
    let (r, m) := r.numbered (n + 1)
    let (as, n') := Node.numberedAll as (m + 2)
    (.method (s.numbered n) r (callee.numbered m) (argSite.numbered (m + 1)) as, n')
  | .keyword s key v, n =>
    let (v, n') := v.numbered (n + 2)
    (.keyword (s.numbered n) (key.numbered (n + 1)) v, n')
  | .index s o i, n =>
    let (o, m) := o.numbered (n + 1)
    let (i, n') := i.numbered m
    (.index (s.numbered n) o i, n')
  | .unary s op x, n =>
    let (x, n') := x.numbered (n + 1)
    (.unary (s.numbered n) op x, n')
  | .binary s op l r, n =>
    let (l, m) := l.numbered (n + 1)
    let (r, n') := r.numbered m
    (.binary (s.numbered n) op l r, n')
  | .ternary s c y z, n =>
    let (c, m) := c.numbered (n + 1)
    let (y, m) := y.numbered m
    let (z, n') := z.numbered m
    (.ternary (s.numbered n) c y z, n')
  | .assign s op t v, n =>
    let (t, m) := t.numbered (n + 1)
    let (v, n') := v.numbered m
    (.assign (s.numbered n) op t v, n')
  | .select s bs, n =>
    let (bs, n') := Branch.numberedAll bs (n + 1)
    (.select (s.numbered n) bs, n')
  | .loop s ids subject body, n =>
    let (ids, m) := Ident.numberedAll ids (n + 1)
    let (subject, m) := subject.numbered m
    let (body, n') := Node.numberedAll body m
    (.loop (s.numbered n) ids subject body, n')
  | .breakLoop s, n => (.breakLoop (s.numbered n), n + 1)
  | .continueLoop s, n => (.continueLoop (s.numbered n), n + 1)
  | .error s m, n => (.error (s.numbered n) m, n + 1)

def Node.numberedAll : List Node → Nat → List Node × Nat
  | [], n => ([], n)
  | a :: as, n =>
    let (a, m) := a.numbered n
    let (as, n') := Node.numberedAll as m
    (a :: as, n')

def Entry.numberedAll : List Entry → Nat → List Entry × Nat
  | [], n => ([], n)
  | .mk s k v :: es, n =>
    let (k, m) := k.numbered (n + 1)
    let (v, m) := v.numbered m
    let (es, n') := Entry.numberedAll es m
    (.mk (s.numbered n) k v :: es, n')

def Branch.numberedAll : List Branch → Nat → List Branch × Nat
  | [], n => ([], n)
  | .guarded c b :: bs, n =>
    let (c, m) := c.numbered n
    let (b, m) := Node.numberedAll b m
    let (bs, n') := Branch.numberedAll bs m
    (.guarded c b :: bs, n')
  | .otherwise b :: bs, n =>
    let (b, m) := Node.numberedAll b n
    let (bs, n') := Branch.numberedAll bs m
    (.otherwise b :: bs, n')
end

def SourceFile.numbered (f : SourceFile) (id n : Nat) : SourceFile × Nat :=
  match f.body with
  | none => ({ f with id := id, site := f.site.numbered n }, n + 1)
  | some b =>
    let (statements, n') := Node.numberedAll b.statements (n + 2)
    (⟨id, f.site.numbered n, f.path, some ⟨b.site.numbered (n + 1), statements⟩⟩, n')

def SourceFile.numberedAll : List SourceFile → Nat → Nat → List SourceFile
  | [], _, _ => []
  | f :: fs, id, n =>
    let (f, n) := f.numbered id n
    f :: SourceFile.numberedAll fs (id + 1) n

end MesonCheck
