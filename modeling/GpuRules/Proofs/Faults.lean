import GpuRules.Proofs.PciId
import GpuRules.Proofs.Version.Display

/-! Where a reading comes to a fault. What stands before it is the text that could be read:
nothing, or the marker of an id, or as long a version or an id as there is at the front of the
text. All of that is ASCII, so that counting characters is counting bytes. -/

namespace GpuRules

/-- The characters before the fault, which only a date does not count. -/
def ParseError.Reason.offset? : Reason → Option Nat
  | .notADate => none
  | .trailing offset | .missing offset _ | .tooLarge offset _ => some offset

theorem ParseError.exists_message {error : ParseError} {offset : Nat}
    (h : error.reason.offset? = some offset) :
    ∃ detail, error.message =
      "parse error in '" ++ error.input ++ "': " ++ pointAt error.input offset detail := by
  obtain ⟨input, reason⟩ := error
  cases reason with
  | notADate => cases h
  | trailing _ | missing _ _ | tooLarge _ _ =>
    obtain rfl := Option.some.inj h
    exact ⟨_, rfl⟩

theorem ParseError.exists_reason {α : Type} {text : String} {outcome : Except Reason α}
    {error : ParseError} (h : outcome.mapError (ParseError.mk text) = .error error) :
    ∃ reason, outcome = .error reason ∧ error = ⟨text, reason⟩ := by
  cases outcome with
  | ok value => cases h
  | error reason => exact ⟨reason, rfl, (Except.error.inj h).symm⟩

namespace Text

/-- The text is cut after so many bytes, into a text of its own and what is left. -/
structure CutAt (text : String) (offset : Nat) (front : String) (rest : List Char) : Prop where
  joined : text.toList = front.toList ++ rest
  bytes : front.utf8ByteSize = offset

/-- The text begins with digits, and the number that they spell, as far as they go, is not beyond
the limit. -/
def BeginsNumber (digit : Char → Bool) (base limit : Nat) (text : List Char) : Prop :=
  ∃ run rest, FrontRun digit text run rest ∧ run ≠ [] ∧ numeral base run ≤ limit

theorem beginsNumber_iff {digit : Char → Bool} {base limit : Nat} {text : List Char} :
    BeginsNumber digit base limit text ↔
      text.takeWhile digit ≠ [] ∧ numeral base (text.takeWhile digit) ≤ limit := by
  constructor
  · rintro ⟨run, rest, hrun, hnumber⟩
    obtain ⟨rfl, -⟩ := frontRun_iff.mp hrun
    exact hnumber
  · intro hnumber
    exact ⟨_, _, frontRun_takeWhile digit text, hnumber⟩

theorem utf8ByteSize_ofList_of_ascii {front : List Char} (h : ∀ c ∈ front, c.toNat ≤ 127) :
    (String.ofList front).utf8ByteSize = front.length := by
  induction front with
  | nil => rfl
  | cons c front ih =>
    rw [List.forall_mem_cons] at h
    have hone : c.utf8Size = 1 := Char.utf8Size_eq_one_iff.mpr (UInt32.le_iff_toNat_le.mpr h.1)
    rw [String.ofList_cons, String.utf8ByteSize_append, String.utf8ByteSize_singleton, hone, ih h.2,
      List.length_cons]
    omega

theorem cutAt_length {text : String} {front rest : List Char} (htext : text.toList = front ++ rest)
    (hascii : ∀ c ∈ front, c.toNat ≤ 127) :
    CutAt text front.length (String.ofList front) rest where
  joined := by rw [String.toList_ofList, htext]
  bytes := utf8ByteSize_ofList_of_ascii hascii

end Text

namespace Version

open Text (BeginsNumber CutAt beginsNumber_iff cutAt_length)

theorem toNat_le_of_isVersionChar {c : Char} (h : isVersionChar c) : c.toNat ≤ 127 := by
  rcases Bool.or_eq_true_iff.mp h with hdigit | hdot
  · have hrange : 48 ≤ c.toNat ∧ c.toNat ≤ 57 := Char.isDigit_iff_toNat.mp hdigit
    omega
  · rw [beq_iff_eq.mp hdot]
    decide

theorem component?_eq_none_iff {text : List Char} :
    component? text = none ↔ ¬BeginsNumber Char.isDigit 10 65535 text := by
  rw [beginsNumber_iff, not_and_or, not_not, Nat.not_le]
  unfold component?
  simp only [ite_eq_left_iff, reduceCtorEq, imp_false, not_not]
  exact Iff.rfl

theorem offset?_refusal (text : List Char) : (refusal text).offset? = some 0 := by
  unfold refusal
  split <;> rfl

structure Stops (left : List Char) : Prop where
  digit : ∀ c ∈ left.head?, c.isDigit = false
  dot : ∀ after, left = '.' :: after → component? after = none

theorem stops_of_moreComponents {text left : List Char} {more : List UInt16}
    (hstart : ∀ c ∈ text.head?, c.isDigit = false) (h : moreComponents text = (more, left)) :
    Stops left := by
  fun_induction moreComponents text generalizing more with
  | case1 after hnone =>
    -- The dot was given back, so the text that is left begins with it.
    obtain ⟨-, rfl⟩ := Prod.mk.inj h
    refine ⟨hstart, ?_⟩
    rintro after ⟨⟩
    exact hnone
  | case2 after component rest hread _ more' left' hmore' ih =>
    obtain ⟨-, rfl⟩ := Prod.mk.inj h
    obtain ⟨_, _, _, hrest⟩ := component?_eq_some_iff.mp hread
    exact ih hrest hmore'
  | case3 text hdot =>
    obtain ⟨-, rfl⟩ := Prod.mk.inj h
    exact ⟨hstart, fun after htext => absurd htext (hdot after)⟩

theorem Spells.text_ne_nil {text : List Char} {components : List UInt16}
    (h : Spells text components) : text ≠ [] := by
  cases h with
  | last hrun => exact hrun.nonempty
  | more _ _ => simp

theorem read_eq_error {text : List Char} {reason : ParseError.Reason}
    (h : read text = .error reason) :
    component? text = none ∧ reason.offset? = some 0 ∨
      component? text ≠ none ∧ ∃ taken left components, text = taken ++ left ∧
        Spells taken components ∧ Stops left ∧ left ≠ [] ∧ reason.offset? = some taken.length := by
  unfold read at h
  split at h
  next hnone =>
    obtain rfl := Except.error.inj h
    exact .inl ⟨hnone, offset?_refusal text⟩
  next first rest hread =>
    have hsome : component? text ≠ none := Option.ne_none_iff_exists'.mpr ⟨_, hread⟩
    obtain ⟨run, hrun, htext, hrest⟩ := component?_eq_some_iff.mp hread
    split at h
    · cases h
    next more left hleft hmore =>
      obtain rfl := Except.error.inj h
      obtain ⟨taken, htaken, hspells⟩ := spells_of_moreComponents hrun hmore
      rw [← htext] at htaken
      refine .inr ⟨hsome, taken, left, _, htaken, hspells, stops_of_moreComponents hrest hmore,
        hleft, ?_⟩
      rw [htaken, List.length_append, Nat.add_sub_cancel]
      rfl

structure FaultAt (text : String) (offset : Nat) : Prop where
  first : offset = 0 ↔ ¬BeginsNumber Char.isDigit 10 65535 text.toList
  taken : offset ≠ 0 → ∃ front c after, CutAt text offset front (c :: after) ∧
    (∃ version, parse front = .ok version) ∧
    c.isDigit = false ∧ (c = '.' → ¬BeginsNumber Char.isDigit 10 65535 after)

theorem exists_faultAt {text : String} {error : ParseError} (h : parse text = .error error) :
    error.input = text ∧ ∃ offset, error.reason.offset? = some offset ∧ FaultAt text offset := by
  obtain ⟨reason, hread, rfl⟩ := ParseError.exists_reason h
  refine ⟨rfl, ?_⟩
  rcases read_eq_error hread with ⟨hnone, hoffset⟩ |
    ⟨hsome, taken, left, components, htext, hspells, hstops, hleft, hoffset⟩
  · have hfirst := component?_eq_none_iff.mp hnone
    exact ⟨0, hoffset, iff_of_true rfl hfirst, fun hne => absurd rfl hne⟩
  · refine ⟨taken.length, hoffset, ?_, ?_⟩
    · rw [← component?_eq_none_iff, List.length_eq_zero_iff]
      exact iff_of_false hspells.text_ne_nil hsome
    · intro _
      obtain ⟨c, after, rfl⟩ := List.exists_cons_of_ne_nil hleft
      have hascii : ∀ c ∈ taken, c.toNat ≤ 127 := fun c hmem =>
        toNat_le_of_isVersionChar (hspells.isVersionChar c hmem)
      refine ⟨_, c, after, cutAt_length htext hascii, ⟨⟨components⟩, ?_⟩, hstops.digit c rfl, ?_⟩
      · rw [parse_eq_ok_iff, String.toList_ofList]
        exact hspells
      · rintro rfl
        exact component?_eq_none_iff.mp (hstops.dot after rfl)

end Version

namespace PciId

open Text (BeginsNumber CutAt FrontRun beginsNumber_iff cutAt_length frontRun_takeWhile isHexDigit
  isHexDigit_iff_toNat numeral)

/-- The text is cut after its marker, which is the longest that it begins with. -/
structure Marked (text marker body : List Char) : Prop where
  joined : text = marker ++ body
  mem : marker ∈ markers
  longest : ∀ other ∈ markers, other <+: text → other <+: marker

theorem exists_marked (text : List Char) : ∃ marker, Marked text marker (unmarked text) := by
  unfold unmarked
  split
  · exact ⟨['0', 'x'], rfl, by decide, by simp [markers]⟩
  · exact ⟨['0', 'X'], rfl, by decide, by simp [markers]⟩
  · next hsmall hcapital =>
    refine ⟨[], rfl, by decide, ?_⟩
    simp only [markers, List.forall_mem_cons, List.prefix_nil]
    refine ⟨fun _ => trivial, ?_, ?_, by simp⟩
    · rintro ⟨digits, rfl⟩
      exact absurd rfl (hsmall digits)
    · rintro ⟨digits, rfl⟩
      exact absurd rfl (hcapital digits)

theorem read_eq_error {text : List Char} {reason : ParseError.Reason}
    (h : read text = .error reason) :
    ∃ marker body, Marked text marker body ∧
      (¬BeginsNumber isHexDigit 16 0xffffffff body ∧ reason.offset? = some marker.length ∨
        ∃ run rest, FrontRun isHexDigit body run rest ∧ run ≠ [] ∧ numeral 16 run ≤ 0xffffffff ∧
          rest ≠ [] ∧ reason.offset? = some (marker.length + run.length)) := by
  obtain ⟨marker, hmarked⟩ := exists_marked text
  have hstart : text.length - (unmarked text).length = marker.length := by
    have hlength := congrArg List.length hmarked.joined
    rw [List.length_append] at hlength
    omega
  refine ⟨marker, unmarked text, hmarked, ?_⟩
  unfold read at h
  dsimp only at h
  rw [hstart] at h
  split at h
  next hmissing =>
    obtain rfl := Except.error.inj h
    refine .inl ⟨?_, rfl⟩
    rw [beginsNumber_iff]
    exact fun hbegins => hbegins.1 hmissing
  next hne =>
    split at h
    next hlarge =>
      obtain rfl := Except.error.inj h
      refine .inl ⟨?_, rfl⟩
      rw [beginsNumber_iff]
      exact fun hbegins => absurd hbegins.2 (Nat.not_le.mpr hlarge)
    next hsmall =>
      split at h
      next hshort =>
        obtain rfl := Except.error.inj h
        have hrun := frontRun_takeWhile isHexDigit (unmarked text)
        refine .inr ⟨_, _, hrun, hne, Nat.le_of_lt_succ (Nat.lt_of_not_le hsmall), ?_, rfl⟩
        intro hrest
        have hall := hrun.joined
        rw [hrest, List.append_nil] at hall
        rw [← hall] at hshort
        exact Nat.lt_irrefl _ hshort
      · cases h

def FaultAt (text : String) (offset : Nat) : Prop :=
  ∃ marker body, Marked text.toList marker body ∧
    (¬BeginsNumber isHexDigit 16 0xffffffff body ∧ CutAt text offset (String.ofList marker) body ∨
      BeginsNumber isHexDigit 16 0xffffffff body ∧ ∃ front c after,
        CutAt text offset front (c :: after) ∧ (∃ id, parse front = .ok id) ∧ isHexDigit c = false)

theorem toNat_le_of_isHexDigit {c : Char} (h : isHexDigit c) : c.toNat ≤ 127 := by
  rw [isHexDigit_iff_toNat] at h
  omega

theorem toNat_le_of_mem_marker {marker : List Char} (h : marker ∈ markers) :
    ∀ c ∈ marker, c.toNat ≤ 127 := by
  have hall : markers.all fun marker => marker.all fun c => c.toNat ≤ 127 := by decide
  intro c hmem
  exact of_decide_eq_true (List.all_eq_true.mp (List.all_eq_true.mp hall marker h) c hmem)

theorem exists_faultAt {text : String} {error : ParseError} (h : parse text = .error error) :
    error.input = text ∧ ∃ offset, error.reason.offset? = some offset ∧ FaultAt text offset := by
  obtain ⟨reason, hread, rfl⟩ := ParseError.exists_reason h
  refine ⟨rfl, ?_⟩
  obtain ⟨marker, body, hmarked, hcases⟩ := read_eq_error hread
  have hmarker := toNat_le_of_mem_marker hmarked.mem
  rcases hcases with ⟨hnumber, hoffset⟩ | ⟨run, rest, hrun, hne, hsmall, hrest, hoffset⟩
  · exact ⟨_, hoffset, marker, body, hmarked, .inl ⟨hnumber, cutAt_length hmarked.joined hmarker⟩⟩
  · refine ⟨_, hoffset, marker, body, hmarked, .inr ⟨⟨run, rest, hrun, hne, hsmall⟩, ?_⟩⟩
    obtain ⟨c, after, rfl⟩ := List.exists_cons_of_ne_nil hrest
    have htext : text.toList = (marker ++ run) ++ c :: after := by
      rw [hmarked.joined, hrun.joined, List.append_assoc]
    have hdigits : ∀ c ∈ run, c.toNat ≤ 127 := fun c hmem =>
      toNat_le_of_isHexDigit (hrun.ofKind c hmem)
    have hascii : ∀ c ∈ marker ++ run, c.toNat ≤ 127 :=
      List.forall_mem_append.mpr ⟨hmarker, hdigits⟩
    have hcut := cutAt_length htext hascii
    rw [List.length_append] at hcut
    have hid : SpellsDigits run (UInt32.ofNat (numeral 16 run)) :=
      ⟨hne, hrun.ofKind, (UInt32.toNat_ofNat_of_lt' (Nat.lt_succ_of_le hsmall)).symm⟩
    refine ⟨_, c, after, hcut, ⟨UInt32.ofNat (numeral 16 run), ?_⟩, hrun.stops c rfl⟩
    rw [parse_eq_ok_iff, String.toList_ofList]
    exact ⟨marker, hmarked.mem, run, rfl, hid⟩

end PciId

/-- The caret of a report stands where the reading ended. Of a text that is no version that is the
very front if no component stands there; else a version stands in front of it, and neither a digit
nor a dot with a component comes next. Of a text that is no id it is right after the marker if no
id stands there; else an id stands in front of it, and no digit comes next. -/
theorem faults_end_what_is_read :
    (∀ text error, Version.parse text = .error error → ∃ offset detail,
      error.reason.offset? = some offset ∧
      error.message =
        "parse error in '" ++ text ++ "': " ++ ParseError.pointAt text offset detail ∧
      Version.FaultAt text offset) ∧
    ∀ text error, PciId.parse text = .error error → ∃ offset detail,
      error.reason.offset? = some offset ∧
      error.message =
        "parse error in '" ++ text ++ "': " ++ ParseError.pointAt text offset detail ∧
      PciId.FaultAt text offset := by
  constructor
  · intro text error h
    obtain ⟨rfl, offset, hoffset, hfault⟩ := Version.exists_faultAt h
    obtain ⟨detail, hmessage⟩ := ParseError.exists_message hoffset
    exact ⟨offset, detail, hoffset, hmessage, hfault⟩
  · intro text error h
    obtain ⟨rfl, offset, hoffset, hfault⟩ := PciId.exists_faultAt h
    obtain ⟨detail, hmessage⟩ := ParseError.exists_message hoffset
    exact ⟨offset, detail, hoffset, hmessage, hfault⟩

/-- A component that is too large is given back with its dot. A digit that is none ends an id, and
an id that is too large is one from its first digit on. -/
theorem faults_end_what_is_read_tooLarge :
    Version.parse "10.6.70000" = .error ⟨"10.6.70000", .trailing 4⟩ ∧
      Version.FaultAt "10.6.70000" 4 ∧
      PciId.parse "0x10dg" = .error ⟨"0x10dg", .trailing 5⟩ ∧ PciId.FaultAt "0x10dg" 5 ∧
      PciId.parse "0x1ffffffff" = .error ⟨"0x1ffffffff", .tooLarge 2 .hexId⟩ ∧
      PciId.FaultAt "0x1ffffffff" 2 := by
  obtain ⟨hversion, hid⟩ := faults_end_what_is_read
  have hgivenBack : Version.parse "10.6.70000" = .error ⟨"10.6.70000", .trailing 4⟩ := by
    with_unfolding_all rfl
  have hended : PciId.parse "0x10dg" = .error ⟨"0x10dg", .trailing 5⟩ := rfl
  have hlarge : PciId.parse "0x1ffffffff" = .error ⟨"0x1ffffffff", .tooLarge 2 .hexId⟩ := rfl
  obtain ⟨_, _, hoffset, -, hfault⟩ := hversion _ _ hgivenBack
  obtain ⟨_, _, hoffset', -, hfault'⟩ := hid _ _ hended
  obtain ⟨_, _, hoffset'', -, hfault''⟩ := hid _ _ hlarge
  cases hoffset
  cases hoffset'
  cases hoffset''
  exact ⟨hgivenBack, hfault, hended, hfault', hlarge, hfault''⟩

end GpuRules
