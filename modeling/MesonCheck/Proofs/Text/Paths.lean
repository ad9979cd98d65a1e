import MesonCheck.Text.Path

/-! Paths as places in a tree of directories. A cleaned path lists the names that lead from the root to the place that
the path stands for, so two paths with a root are cleaned to the same text exactly if they lead to the same place. -/
namespace MesonCheck

namespace Text

theorem splitChars_ne_nil (sep : Char) (cs : List Char) : splitChars sep cs ≠ [] := by
  cases cs with
  | nil => simp [splitChars]
  | cons c cs =>
    rw [splitChars]
    split
    · simp
    · split <;> simp

theorem splitChars_append (sep : Char) (cs ds : List Char) :
    splitChars sep (cs ++ sep :: ds) = splitChars sep cs ++ splitChars sep ds := by
  induction cs with
  | nil =>
    cases parts : splitChars sep ds with
    | nil => exact absurd parts (splitChars_ne_nil sep ds)
    | cons part rest => simp [splitChars, parts]
  | cons c cs ih =>
    rw [List.cons_append, splitChars, ih, splitChars]
    cases parts : splitChars sep cs with
    | nil => exact absurd parts (splitChars_ne_nil sep cs)
    | cons part rest =>
      dsimp only [List.cons_append]
      split <;> rfl

theorem not_mem_of_mem_splitChars {sep : Char} {cs part : List Char} (member : part ∈ splitChars sep cs) :
    sep ∉ part := by
  induction cs generalizing part with
  | nil => simp_all [splitChars]
  | cons c cs ih =>
    rw [splitChars] at member
    cases parts : splitChars sep cs with
    | nil => exact absurd parts (splitChars_ne_nil sep cs)
    | cons first rest =>
      rw [parts] at ih member
      have clean := ih List.mem_cons_self
      dsimp only at member
      split at member
      · rcases List.mem_cons.mp member with rfl | later
        · exact List.not_mem_nil
        · exact ih later
      · rename_i other
        rcases List.mem_cons.mp member with rfl | later
        · simp only [List.mem_cons, not_or]
          exact ⟨Ne.symm other, clean⟩
        · exact ih (List.mem_cons_of_mem _ later)

theorem splitChars_of_not_mem {sep : Char} {cs : List Char} (absent : sep ∉ cs) : splitChars sep cs = [cs] := by
  induction cs with
  | nil => rfl
  | cons c cs ih =>
    rw [List.mem_cons, not_or] at absent
    rw [splitChars, ih absent.2]
    exact if_neg (Ne.symm absent.1)

theorem split_append (s t : String) : split '/' (s ++ "/" ++ t) = split '/' s ++ split '/' t := by
  have chars : (s ++ "/" ++ t).toList = s.toList ++ '/' :: t.toList := by simp
  rw [split, chars, splitChars_append, List.map_append]
  rfl

theorem not_mem_of_mem_split {s part : String} (member : part ∈ split '/' s) : '/' ∉ part.toList := by
  obtain ⟨cs, inside, rfl⟩ := List.mem_map.mp member
  rw [String.toList_ofList]
  exact not_mem_of_mem_splitChars inside

theorem split_joinWith {parts : List String} (nonempty : parts ≠ []) (plain : ∀ p ∈ parts, '/' ∉ p.toList) :
    split '/' (joinWith "/" parts) = parts := by
  induction parts with
  | nil => contradiction
  | cons p ps ih =>
    obtain ⟨here, rest⟩ := List.forall_mem_cons.mp plain
    have single : split '/' p = [p] := by
      rw [split, splitChars_of_not_mem here, List.map_singleton, String.ofList_toList]
    cases ps with
    | nil => exact single
    | cons q qs =>
      rw [joinWith, split_append, single, ih (List.cons_ne_nil q qs) rest]
      · rfl
      · simp

end Text

namespace Path

/-- Where a segment leads to. A place is given by the names that lead to it from the root, last one first. An empty
segment and a dot stay, two dots go up, though not above the root, and a name goes down. -/
def step (place : List String) (s : String) : List String :=
  if s = "" ∨ s = "." then place else if s = ".." then place.tail else s :: place

def follow (place : List String) (path : String) : List String :=
  (Text.split '/' path).foldl step place

def target (dir file : String) : List String :=
  follow (if isAbsolute file then [] else follow [] dir) file

def absolute (place : List String) : String :=
  "/" ++ Text.joinWith "/" place.reverse

def IsName (s : String) : Prop :=
  s ≠ "" ∧ s ≠ "." ∧ s ≠ ".." ∧ '/' ∉ s.toList

theorem isAbsolute_iff {p : String} : isAbsolute p = true ↔ ∃ rest, p.toList = '/' :: rest := by
  have slash : "/".toList = ['/'] := rfl
  rw [isAbsolute, Text.startsWith, slash]
  cases p.toList with
  | nil => simp [Text.afterChars?]
  | cons c cs =>
    rw [Text.afterChars?]
    by_cases first : '/' = c
    · subst first
      simp [Text.afterChars?]
    · simp [first, Ne.symm first]

theorem isAbsolute_append {p : String} (rooted : isAbsolute p = true) (q : String) : isAbsolute (p ++ q) = true := by
  obtain ⟨rest, chars⟩ := isAbsolute_iff.mp rooted
  exact isAbsolute_iff.mpr ⟨rest ++ q.toList, by rw [String.toList_append, chars, List.cons_append]⟩

/-! Cleaning follows a path. -/

theorem resolve_eq_foldl (segments : List String) {kept : List String} (names : ".." ∉ kept) :
    resolve true kept segments = segments.foldl step kept := by
  induction segments generalizing kept with
  | nil => rfl
  | cons s rest ih =>
    rw [resolve.eq_def, List.foldl_cons, step]
    dsimp only
    split
    · exact ih names
    · split
      · -- above the root there is nothing, so no step up is ever kept
        cases kept with
        | nil => exact ih names
        | cons k ks =>
          dsimp only
          rw [if_neg (Ne.symm (List.ne_of_not_mem_cons names))]
          exact ih (List.not_mem_of_not_mem_cons names)
      · rename_i other
        exact ih (List.not_mem_cons_of_ne_of_not_mem (Ne.symm other) names)

theorem clean_of_isAbsolute {p : String} (rooted : isAbsolute p = true) : clean p = absolute (follow [] p) := by
  simp only [clean, rooted, if_true]
  rw [resolve_eq_foldl _ List.not_mem_nil]
  rfl

theorem follow_empty (place : List String) : follow place "" = place := rfl

theorem follow_append (place : List String) (p q : String) :
    follow place (p ++ "/" ++ q) = follow (follow place p) q := by
  rw [follow, Text.split_append, List.foldl_append]
  rfl

theorem join_of_isAbsolute {dir : String} (rooted : isAbsolute dir = true) (file : String) :
    join [dir, file] = absolute (follow (follow [] dir) file) := by
  have nonempty : dir ≠ "" := by
    rintro rfl
    contradiction
  by_cases empty : file = ""
  · have only : [dir, file].filter (· ≠ "") = [dir] := by simp [nonempty, empty]
    rw [join, only, empty, follow_empty]
    exact clean_of_isAbsolute rooted
  · have both : [dir, file].filter (· ≠ "") = [dir, file] := by simp [nonempty, empty]
    rw [join, both, ← follow_append]
    exact clean_of_isAbsolute (isAbsolute_append (isAbsolute_append rooted "/") file)

/-! Places. -/

theorem isName_step {place : List String} (names : ∀ k ∈ place, IsName k) {s : String} (segment : '/' ∉ s.toList) :
    ∀ k ∈ step place s, IsName k := by
  unfold step
  split
  · exact names
  · rename_i moving
    split
    · exact fun k member => names k (List.mem_of_mem_tail member)
    · rename_i down
      rw [not_or] at moving
      exact List.forall_mem_cons.mpr ⟨⟨moving.1, moving.2, down, segment⟩, names⟩

theorem isName_follow {place : List String} (names : ∀ k ∈ place, IsName k) (p : String) :
    ∀ k ∈ follow place p, IsName k := by
  have plain : ∀ s ∈ Text.split '/' p, '/' ∉ s.toList := fun s => Text.not_mem_of_mem_split
  unfold follow
  generalize Text.split '/' p = segments at plain
  induction segments generalizing place with
  | nil => exact names
  | cons s rest ih =>
    obtain ⟨here, later⟩ := List.forall_mem_cons.mp plain
    exact ih (isName_step names here) later

theorem isName_target (dir file : String) : ∀ k ∈ target dir file, IsName k := by
  refine isName_follow ?_ file
  split
  · simp
  · exact isName_follow (by simp) dir

theorem foldl_step_of_names (place : List String) {names : List String} (all : ∀ k ∈ names, IsName k) :
    names.foldl step place = names.reverse ++ place := by
  induction names generalizing place with
  | nil => rfl
  | cons k ks ih =>
    obtain ⟨⟨full, dot, dots, _⟩, rest⟩ := List.forall_mem_cons.mp all
    have down : step place k = k :: place := by simp [step, full, dot, dots]
    rw [List.foldl_cons, down, ih _ rest, List.reverse_cons, List.append_assoc]
    rfl

theorem follow_absolute {place : List String} (names : ∀ k ∈ place, IsName k) : follow [] (absolute place) = place := by
  have empty : absolute place = "" ++ "/" ++ Text.joinWith "/" place.reverse := by simp [absolute]
  rw [empty, follow_append, follow_empty]
  by_cases top : place = []
  · subst top
    rfl
  · have all : ∀ k ∈ place.reverse, IsName k := fun k member => names k (List.mem_reverse.mp member)
    rw [follow, Text.split_joinWith (by simpa using top) fun k member => (all k member).2.2.2,
      foldl_step_of_names [] all, List.reverse_reverse, List.append_nil]

theorem isAbsolute_absolute (place : List String) : isAbsolute (absolute place) = true :=
  isAbsolute_append rfl _

theorem clean_absolute {place : List String} (names : ∀ k ∈ place, IsName k) :
    clean (absolute place) = absolute place := by
  rw [clean_of_isAbsolute (isAbsolute_absolute place), follow_absolute names]

theorem absolute_inj {place place' : List String} (names : ∀ k ∈ place, IsName k) (names' : ∀ k ∈ place', IsName k) :
    absolute place = absolute place' ↔ place = place' := by
  refine ⟨fun same => ?_, congrArg absolute⟩
  rw [← follow_absolute names, same, follow_absolute names']

end Path

end MesonCheck
