import Mathlib.Algebra.BigOperators.Group.List.Lemmas
import Mathlib.Algebra.GroupWithZero.Nat
import MesonCheck.Editor
import MesonCheck.Proofs.Text.ByteOrder
import MesonCheck.Proofs.Text.Paths
import MesonCheck.Proofs.Text.Placeholders
import MesonCheck.Proofs.Text.Sorted

/-! Diagnostics by document. The address of a file can be read back to the bytes of its path, and the path tells where
the file is, so a document holds the diagnostics of one place and all of them. -/
namespace MesonCheck.Editor

/-! Reading an address back. -/

def digitValue (c : Char) : Nat :=
  if c.isDigit then c.toNat - '0'.toNat else c.toNat - 'A'.toNat + 10

def unescape : List Char → List UInt8
  | '%' :: high :: low :: cs => UInt8.ofNat (16 * digitValue high + digitValue low) :: unescape cs
  | c :: cs => UInt8.ofNat c.toNat :: unescape cs
  | [] => []

theorem digitValue_digitChar {d : Nat} (digit : d < 16) : digitValue (Nat.digitChar d).toUpper = d := by
  revert d
  decide

theorem unescape_percent (b : UInt8) (cs : List Char) : unescape (percent b ++ cs) = b :: unescape cs := by
  have byte : b.toNat < 256 := b.toNat_lt
  have high := digitValue_digitChar (Nat.mod_lt (b.toNat / 16) (by decide : 0 < 16))
  have low := digitValue_digitChar (Nat.mod_lt b.toNat (by decide : 0 < 16))
  have whole : 16 * (b.toNat / 16 % 16) + b.toNat % 16 = b.toNat := by omega
  simp only [percent, Text.hexDigits, List.nil_append, List.cons_append, List.map_cons, List.map_nil, unescape, high,
    low, whole, UInt8.ofNat_toNat]

theorem unescape_flatMap_percent (bs : List UInt8) (cs : List Char) :
    unescape (bs.flatMap percent ++ cs) = bs ++ unescape cs := by
  induction bs with
  | nil => rfl
  | cons b bs ih => rw [List.flatMap_cons, List.append_assoc, unescape_percent, ih, List.cons_append]

theorem unescape_cons {c : Char} (other : c ≠ '%') (cs : List Char) :
    unescape (c :: cs) = UInt8.ofNat c.toNat :: unescape cs := by
  rw [unescape]
  rintro _ _ _ rfl
  contradiction

theorem isPlain_bound {c : Char} (plain : isPlain c = true) : c.toNat ≤ 127 := by
  rw [isPlain, Bool.or_eq_true] at plain
  rcases plain with word | mark
  · delta Char.isAlphanum Char.isAlpha Char.isUpper Char.isLower Char.isDigit at word
    simp only [Bool.or_eq_true, Bool.and_eq_true, decide_eq_true_eq, ge_iff_le, UInt32.le_iff_toNat_le] at word
    change ((65 ≤ c.toNat ∧ c.toNat ≤ 90) ∨ (97 ≤ c.toNat ∧ c.toNat ≤ 122)) ∨ (48 ≤ c.toNat ∧ c.toNat ≤ 57) at word
    omega
  · have marks : "-_.~$&+,/:;=@".toList.all (·.toNat ≤ 127) = true := rfl
    exact of_decide_eq_true (List.all_eq_true.mp marks c (List.contains_iff_mem.mp mark))

theorem unescape_encodeChar (c : Char) (cs : List Char) :
    unescape (encodeChar c ++ cs) = String.utf8EncodeChar c ++ unescape cs := by
  rw [encodeChar]
  split
  · rename_i plain
    have other : c ≠ '%' := by
      rintro rfl
      contradiction
    have single : Text.width c.toNat = 0 := if_pos (isPlain_bound plain)
    rw [List.singleton_append, unescape_cons other, Text.encode_eq, single]
    simp [Text.lead, Text.trailing]
  · exact unescape_flatMap_percent _ cs

theorem unescape_flatMap_encodeChar (cs : List Char) :
    unescape (cs.flatMap encodeChar) = cs.flatMap String.utf8EncodeChar := by
  induction cs with
  | nil => rfl
  | cons c cs ih => rw [List.flatMap_cons, unescape_encodeChar, ih, List.flatMap_cons]

theorem address_unescape (path : String) :
    ∃ code, address path = "file://" ++ String.ofList code ∧ unescape code = Text.bytes path :=
  ⟨_, rfl, by rw [unescape_flatMap_encodeChar, Text.bytes_eq_flatMap]⟩

theorem address_inj {p q : String} : address p = address q ↔ p = q := by
  refine ⟨fun same => ?_, congrArg address⟩
  obtain ⟨code, written, read⟩ := address_unescape p
  obtain ⟨code', written', read'⟩ := address_unescape q
  have codes : code = code' := by
    rw [written, written', ← String.toList_inj] at same
    simpa using same
  have bytes : Text.bytes p = Text.bytes q := by rw [← read, ← read', codes]
  exact String.toByteArray_inj.mp (ByteArray.ext (Array.toList_inj.mp bytes))

/-! Where the file of a diagnostic is. -/

theorem resolve_eq {dir : String} (rooted : Path.isAbsolute dir = true) (file : String) :
    resolve dir file = Path.absolute (Path.target dir file) := by
  unfold resolve Path.target
  split
  · rename_i absolute
    exact Path.clean_of_isAbsolute absolute
  · exact Path.join_of_isAbsolute rooted file

theorem documentOf_eq {dir : String} (rooted : Path.isAbsolute dir = true) (d : Diagnostic) :
    documentOf dir d = address (Path.absolute (Path.target dir d.file)) :=
  congrArg address (resolve_eq rooted d.file)

theorem documentOf_inj {dir : String} (rooted : Path.isAbsolute dir = true) {d e : Diagnostic} :
    documentOf dir d = documentOf dir e ↔ Path.target dir d.file = Path.target dir e.file := by
  rw [documentOf_eq rooted, documentOf_eq rooted, address_inj,
    Path.absolute_inj (Path.isName_target dir d.file) (Path.isName_target dir e.file)]

/-! What a marker shows. -/

theorem tag?_eq_unnecessary {message : String} :
    tag? message = some .unnecessary ↔ message = "dead code" ∨ message = "unused assignment" := by
  unfold tag?
  split
  · simpa
  · split <;> simp_all

theorem tag?_eq_deprecated {message : String} :
    tag? message = some .deprecated ↔ " is deprecated".toList <:+: message.toList := by
  rw [← Text.containsChars_iff]
  unfold tag?
  split
  · rename_i unused
    rcases unused with rfl | rfl <;> decide
  · split <;> simp_all [Text.contains]

structure Shows (m : Marker) (d : Diagnostic) : Prop where
  message : m.message = d.message
  severity : m.isError = true ↔ d.severity = .error
  unnecessary : m.tag = some .unnecessary ↔ d.message = "dead code" ∨ d.message = "unused assignment"
  deprecated : m.tag = some .deprecated ↔ " is deprecated".toList <:+: d.message.toList

theorem shows_ofDiagnostic (d : Diagnostic) : Shows (Marker.ofDiagnostic d) d where
  message := rfl
  severity := by simp [Marker.ofDiagnostic]
  unnecessary := tag?_eq_unnecessary
  deprecated := tag?_eq_deprecated

/-! Groups. -/

theorem addresses_nodup (dir : String) (ds : List Diagnostic) : ((documents dir ds).map (·.1)).Nodup := by
  have addresses : (documents dir ds).map (·.1) = Text.sortedUnique (ds.map (documentOf dir)) := by
    simp [documents, Function.comp_def]
  rw [addresses]
  exact Text.nodup_of_sorted (Text.sortedUnique_sorted _)

theorem mem_documents {dir : String} (rooted : Path.isAbsolute dir = true) {ds : List Diagnostic} {a : String}
    {ms : List Marker} :
    (a, ms) ∈ documents dir ds ↔ ∃ d ∈ ds, a = documentOf dir d ∧
      ms = (ds.filter fun e => Path.target dir e.file = Path.target dir d.file).map Marker.ofDiagnostic := by
  simp only [documents, List.mem_map, Text.mem_sortedUnique, Prod.mk.injEq, ← documentOf_inj rooted]
  constructor
  · rintro ⟨_, ⟨d, member, rfl⟩, rfl, rfl⟩
    exact ⟨d, member, rfl, rfl⟩
  · rintro ⟨d, member, rfl, rfl⟩
    exact ⟨_, ⟨d, member, rfl⟩, rfl, rfl⟩

theorem sum_lengths (dir : String) (ds : List Diagnostic) : ((documents dir ds).map (·.2.length)).sum = ds.length := by
  let addresses := ds.map (documentOf dir)
  have sizes : (documents dir ds).map (·.2.length) = (Text.sortedUnique addresses).map addresses.count := by
    rw [documents, List.map_map]
    refine List.map_congr_left fun a _ => ?_
    simp only [Function.comp_apply, List.length_map, ← List.countP_eq_length_filter, addresses, List.count,
      List.countP_map]
    rfl
  have perm : (Text.sortedUnique addresses).Perm addresses.dedup := by
    rw [List.perm_ext_iff_of_nodup (Text.nodup_of_sorted (Text.sortedUnique_sorted _)) (List.nodup_dedup _)]
    simp [Text.mem_sortedUnique]
  rw [sizes, (perm.map _).sum_eq, List.sum_map_count_dedup_eq_length, List.length_map]

/-- Two diagnostics come into the same document exactly if their files, seen from the directory, are at the same place;
a document holds the diagnostics of its place, each as its own marker and in the order given, and no diagnostic is lost
or shown twice. The address of a document is the percent encoding of the cleaned path from the root to the place. -/
theorem documents_group {dir : String} (rooted : Path.isAbsolute dir = true) (ds : List Diagnostic) :
    (∀ d : Diagnostic,
      let path := Path.absolute (Path.target dir d.file)
      Path.isAbsolute path = true ∧ Path.clean path = path ∧
        ∃ code, documentOf dir d = "file://" ++ String.ofList code ∧ unescape code = Text.bytes path) ∧
    (∀ d e : Diagnostic,
      documentOf dir d = documentOf dir e ↔ Path.target dir d.file = Path.target dir e.file) ∧
    ((documents dir ds).map (·.1)).Nodup ∧
    (∀ a ms, (a, ms) ∈ documents dir ds ↔ ∃ d ∈ ds, a = documentOf dir d ∧
      ms = (ds.filter fun e => Path.target dir e.file = Path.target dir d.file).map Marker.ofDiagnostic) ∧
    (∀ d : Diagnostic, Shows (Marker.ofDiagnostic d) d) ∧
    ((documents dir ds).map (·.2.length)).sum = ds.length := by
  refine ⟨fun d => ⟨Path.isAbsolute_absolute _, Path.clean_absolute (Path.isName_target dir d.file), ?_⟩,
    fun d e => documentOf_inj rooted, addresses_nodup dir ds, fun a ms => mem_documents rooted, shows_ofDiagnostic,
    sum_lengths dir ds⟩
  rw [documentOf_eq rooted]
  exact address_unescape _

/-- Three files seen from a directory: the first two are the same one, the third has a name that needs encoding. -/
def sampleReports : List Diagnostic :=
  [⟨.warning, "sub/..//meson.build", .zero, "dead code"⟩, ⟨.error, "50% é/meson.build", .zero, "f is deprecated"⟩,
    ⟨.error, "/w/./p/meson.build", .zero, "unknown"⟩]

theorem documents_group_sample :
    Path.isAbsolute "/w/p" = true ∧
    (documentOf "/w/p" sampleReports[0] = documentOf "/w/p" sampleReports[2] ∧
      documentOf "/w/p" sampleReports[0] ≠ documentOf "/w/p" sampleReports[1]) ∧
    (documentOf "/w/p" sampleReports[2], [Marker.ofDiagnostic sampleReports[0], Marker.ofDiagnostic sampleReports[2]])
      ∈ documents "/w/p" sampleReports ∧
    ((documents "/w/p" sampleReports).map (·.2.length)).sum = 3 := by
  have rooted : Path.isAbsolute "/w/p" = true := by decide
  obtain ⟨_, same, _, members, _, lengths⟩ := documents_group rooted sampleReports
  refine ⟨rooted, ⟨(same _ _).mpr (by decide), fun equal => absurd ((same _ _).mp equal) (by decide)⟩, ?_, lengths⟩
  exact (members _ _).mpr ⟨sampleReports[2], by decide, rfl, by decide⟩

end MesonCheck.Editor
