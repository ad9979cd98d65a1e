import MesonCheck.Types.Basic
import Std.Data.ExtTreeMap

/-! Scopes. A scope is a chain of frames: the innermost frame takes all new bindings, and a name is looked up from the
innermost frame outwards. -/
namespace MesonCheck

abbrev Frame := Std.ExtTreeMap String TypeSet

structure Scope where
  inner : Frame
  outer : List Frame

namespace Scope

def ofBindings (bs : List (String × TypeSet)) : Scope :=
  ⟨Std.ExtTreeMap.ofList bs, []⟩

def frames (s : Scope) : List Frame :=
  s.inner :: s.outer

def lookup (s : Scope) (name : String) : Option TypeSet :=
  s.frames.findSome? (·[name]?)

def has (s : Scope) (name : String) : Bool :=
  (s.lookup name).isSome

def bind (s : Scope) (name : String) (ts : TypeSet) : Scope :=
  { s with inner := s.inner.insert name ts }

def locals (s : Scope) : List String :=
  s.inner.keys

/-- All visible bindings; an inner frame hides what an outer one binds. -/
def flatten (s : Scope) : Frame :=
  s.outer.foldl (fun visible f => f ∪ visible) s.inner

def push (s : Scope) : Scope :=
  ⟨∅, s.frames⟩

/-- Drops the innermost frame; the last one stays. -/
def pop (s : Scope) : Scope :=
  match s.outer with
  | [] => s
  | f :: fs => ⟨f, fs⟩

/-- Drops the innermost frame and moves its bindings to the next one; the last frame stays. -/
def flush (s : Scope) : Scope :=
  match s.outer with
  | [] => s
  | f :: fs => ⟨f ∪ s.inner, fs⟩

def depth (s : Scope) : Nat :=
  s.frames.length

end Scope

end MesonCheck
