import MesonCheck.Tree.Node

/-! Synthetic places for trees that were not read from a text. Every leaf stands on a line of its own, and every other
node reaches from its first leaf to its last. A call has its name and its argument list as children. -/
namespace MesonCheck

def Site.leaf (line width : Nat) : Site :=
  .at ⟨⟨line, 0⟩, ⟨line, width⟩⟩

/-- The place of a node with children at these ranges; without children it is a leaf and takes a line. -/
def Site.around (rs : List Range) (line : Nat) : Site × Nat :=
  match Range.hull? rs with
  | some r => (.at r, line)
  | none => (.leaf line 1, line + 1)

def Ident.placed (id : Ident) (line : Nat) : Ident :=
  ⟨.leaf line id.name.utf8ByteSize, id.name⟩

def Ident.placedAll : List Ident → Nat → List Ident × Nat
  | [], line => ([], line)
  | id :: ids, line =>
    let (rest, line') := Ident.placedAll ids (line + 1)
    (id.placed line :: rest, line')

def Branch.ranges : List Branch → List Range
  | [] => []
  | .guarded c b :: bs => c.range :: b.map Node.range ++ Branch.ranges bs
  | .otherwise b :: bs => b.map Node.range ++ Branch.ranges bs

mutual
/-- Places a node and all below it from a line on; the second result is the next free line. -/
def Node.placed : Node → Nat → Node × Nat
  | .int _ v, line => (.int (.leaf line 1) v, line + 1)
  | .str _ t f, line => (.str (.leaf line (t.utf8ByteSize + 2)) t f, line + 1)
  | .bool _ v, line => (.bool (.leaf line 1) v, line + 1)
  | .array _ es, line =>
    let (es, line) := Node.placedAll es line
    let (s, line) := Site.around (es.map Node.range) line
    (.array s es, line)
  | .dict _ es, line =>
    let (es, line) := Entry.placedAll es line
    let (s, line) := Site.around (es.map (·.site.range)) line
    (.dict s es, line)
  | .ident id, line => (.ident (id.placed line), line + 1)
  | .call _ callee _ as, line =>
    let callee := callee.placed line
    let (as, line) := Node.placedAll as (line + 1)
    let (argSite, line) := Site.around (as.map Node.range) line
    (.call (.at (.span callee.site.range argSite.range)) callee argSite as, line)
  | .method _ r callee _ as, line =>
    let (r, line) := r.placed line
    let callee := callee.placed line
    let (as, line) := Node.placedAll as (line + 1)
    let (argSite, line) := Site.around (as.map Node.range) line
    (.method (.at (.span r.range argSite.range)) r callee argSite as, line)
  | .keyword _ key v, line =>
    let key := key.placed line
    let (v, line) := v.placed (line + 1)
    (.keyword (.at (.span key.site.range v.range)) key v, line)
  | .index _ o i, line =>
    let (o, line) := o.placed line
    let (i, line) := i.placed line
    (.index (.at (.span o.range i.range)) o i, line)
  | .unary _ op x, line =>
    let (x, line) := x.placed line
    (.unary (.at x.range) op x, line)
  | .binary _ op l r, line =>
    let (l, line) := l.placed line
    let (r, line) := r.placed line
    (.binary (.at (.span l.range r.range)) op l r, line)
  | .ternary _ c y n, line =>
    let (c, line) := c.placed line
    let (y, line) := y.placed line
    let (n, line) := n.placed line
    (.ternary (.at (.span c.range n.range)) c y n, line)
  | .assign _ op t v, line =>
    let (t, line) := t.placed line
    let (v, line) := v.placed line
    (.assign (.at (.span t.range v.range)) op t v, line)
  | .select _ bs, line =>
    let (bs, line) := Branch.placedAll bs line
    let (s, line) := Site.around (Branch.ranges bs) line
    (.select s bs, line)
  | .loop _ ids subject body, line =>
    let (ids, line) := Ident.placedAll ids line
    let (subject, line) := subject.placed line
    let (body, line) := Node.placedAll body line
    let (s, line) := Site.around (ids.map (·.site.range) ++ subject.range :: body.map Node.range) line
    (.loop s ids subject body, line)
  | .breakLoop _, line => (.breakLoop (.leaf line 5), line + 1)
  | .continueLoop _, line => (.continueLoop (.leaf line 8), line + 1)
  | .error _ m, line => (.error (.leaf line 1) m, line + 1)

def Node.placedAll : List Node → Nat → List Node × Nat
  | [], line => ([], line)
  | n :: ns, line =>
    let (n, line) := n.placed line
    let (ns, line) := Node.placedAll ns line
    (n :: ns, line)

def Entry.placedAll : List Entry → Nat → List Entry × Nat
  | [], line => ([], line)
  | .mk _ k v :: es, line =>
    let (k, line) := k.placed line
    let (v, line) := v.placed line
    let (es, line) := Entry.placedAll es line
    (.mk (.at (.span k.range v.range)) k v :: es, line)

def Branch.placedAll : List Branch → Nat → List Branch × Nat
  | [], line => ([], line)
  | .guarded c b :: bs, line =>
    let (c, line) := c.placed line
    let (b, line) := Node.placedAll b line
    let (bs, line) := Branch.placedAll bs line
    (.guarded c b :: bs, line)
  | .otherwise b :: bs, line =>
    let (b, line) := Node.placedAll b line
    let (bs, line) := Branch.placedAll bs line
    (.otherwise b :: bs, line)
end

def SourceFile.laidOut (path : String) (statements : List Node) (line : Nat) : SourceFile × Nat :=
  let (statements, line) := Node.placedAll statements line
  let (s, line) := Site.around (statements.map Node.range) line
  (⟨0, s, path, some ⟨s, statements⟩⟩, line)

def SourceFile.laidOutAll : List (String × List Node) → Nat → List SourceFile × Nat
  | [], line => ([], line)
  | (path, statements) :: rest, line =>
    let (f, line) := SourceFile.laidOut path statements line
    let (fs, line) := SourceFile.laidOutAll rest line
    (f :: fs, line)

end MesonCheck
