import MesonCheck.Analysis.Scope

/-! Scopes seen through `lookup`. Opening a frame and moving its bindings out again change no visible binding. -/
namespace MesonCheck.Scope

theorem lookup_eq (s : Scope) (x : String) : s.lookup x = s.inner[x]?.or (s.outer.findSome? (·[x]?)) := by
  rw [lookup, frames, List.findSome?_cons]
  cases s.inner[x]? <;> rfl

@[simp] theorem lookup_bind (s : Scope) (x y : String) (ts : TypeSet) :
    (s.bind y ts).lookup x = if x = y then some ts else s.lookup x := by
  simp only [lookup_eq, bind, Std.ExtTreeMap.getElem?_insert, Std.compare_eq_iff_eq]
  by_cases same : x = y
  · simp [same]
  · simp [same, Ne.symm same]

@[simp] theorem outer_bind (s : Scope) (y : String) (ts : TypeSet) : (s.bind y ts).outer = s.outer := rfl

@[simp] theorem lookup_push (s : Scope) (x : String) : s.push.lookup x = s.lookup x := by
  rw [lookup_eq, push]
  simp [lookup]

theorem lookup_flush (s : Scope) (f : Frame) (fs : List Frame) (opened : s.outer = f :: fs) (x : String) :
    s.flush.lookup x = s.lookup x := by
  rw [flush, opened, lookup_eq, lookup_eq, opened, List.findSome?_cons, Std.ExtTreeMap.getElem?_union]
  cases s.inner[x]? <;> cases f[x]? <;> rfl

theorem outer_flush (s : Scope) (f : Frame) (fs : List Frame) (opened : s.outer = f :: fs) :
    s.flush.outer = fs := by
  rw [flush, opened]

theorem getElem?_flatten (s : Scope) (x : String) : s.flatten[x]? = s.lookup x := by
  have visible : ∀ (fs : List Frame) (f : Frame),
      (fs.foldl (fun visible f => f ∪ visible) f)[x]? = f[x]?.or (fs.findSome? (·[x]?)) := by
    intro fs
    induction fs with
    | nil => simp
    | cons g gs ih =>
      intro f
      rw [List.foldl_cons, ih, Std.ExtTreeMap.getElem?_union, List.findSome?_cons]
      cases f[x]? <;> cases g[x]? <;> rfl
  rw [flatten, visible, lookup_eq]

theorem eq_of_lookup {s t : Scope} (flat : s.outer = []) (flat' : t.outer = [])
    (visible : ∀ x, s.lookup x = t.lookup x) : s = t := by
  obtain ⟨f, _⟩ := s
  obtain ⟨g, _⟩ := t
  cases flat
  cases flat'
  have same : f = g := by
    refine Std.ExtTreeMap.ext_getElem? fun x => ?_
    simpa [lookup_eq] using visible x
  rw [same]

end MesonCheck.Scope
