import GpuRules.Criterion.Version
import GpuRules.Proofs.Version.Dates
import GpuRules.Proofs.Version.Order
import Mathlib.Data.List.ModifyLast

/-! Criteria as intervals of the order of versions. Every criterion contains what lies between two
versions that it contains. For most operators this is plain; `=` begins at its bound and ends where
the last component of the bound would be one more. -/

namespace GpuRules

namespace Version

/-- The versions that a bound begins go from the bound up to where its last component is raised. -/
theorem beginsValues_iff {bound : List Nat} (hbound : bound ≠ []) (candidate : List Nat) :
    beginsValues bound candidate ↔ (compareValues bound candidate).isLE ∧
      compareValues candidate (bound.modifyLast (· + 1)) = .lt := by
  induction bound generalizing candidate with
  | nil => exact absurd rfl hbound
  | cons b bound ih =>
    have hcons (c : Nat) (candidate : List Nat) :
        beginsValues (b :: bound) (c :: candidate) ↔
          (compareValues (b :: bound) (c :: candidate)).isLE ∧
            compareValues (c :: candidate) ((b :: bound).modifyLast (· + 1)) = .lt := by
      rw [beginsValues, Bool.and_eq_true, beq_iff_eq, isLE_compareValues_cons_iff]
      cases bound with
      | nil =>
        -- The last component of the bound, which anything may follow.
        have hraised : [b].modifyLast (· + 1) = [b + 1] := rfl
        have habove : compareValues candidate [] ≠ .lt :=
          Std.OrientedCmp.not_lt_of_isLE (isLE_compareValues_nil candidate)
        rw [hraised, compareValues_cons_eq_lt_iff]
        simp only [beginsValues, isLE_compareValues_nil, habove]
        grind
      | cons b' bound =>
        have hraised : (b :: b' :: bound).modifyLast (· + 1) =
            b :: (b' :: bound).modifyLast (· + 1) :=
          List.modifyLast_append_of_right_ne_nil _ [b] _ (List.cons_ne_nil b' bound)
        rw [hraised, compareValues_cons_eq_lt_iff, ih (List.cons_ne_nil b' bound) candidate]
        grind
    cases candidate with
    | cons c candidate => exact hcons c candidate
    | nil =>
      -- No component at all is as good as a zero.
      rw [← beginsValues_append_zeros _ [] 1, ← compareValues_append_zeros _ [] 1,
        ← compareValues_append_zeros_left [] _ 1]
      exact hcons 0 []

theorem begins_iff {bound : Version} (hbound : bound.components ≠ []) (candidate : Version) :
    bound.begins candidate ↔ bound ≤ candidate ∧
      compareValues candidate.values (bound.values.modifyLast (· + 1)) = .lt :=
  beginsValues_iff (by simpa [values] using hbound) candidate.values

theorem begins_of_beq {bound candidate : Version} (h : candidate == bound) :
    bound.begins candidate := by
  rw [begins_candidate_eq_of_beq h]
  simpa [begins, beginsValues] using beginsValues_append bound.values [] []

theorem le_of_begins {bound candidate : Version} (h : bound.begins candidate) :
    bound ≤ candidate := by
  by_cases hbound : bound.components = []
  · obtain ⟨components⟩ := bound
    obtain rfl : components = [] := hbound
    exact isLE_compareValues_nil candidate.values
  · exact ((begins_iff hbound candidate).mp h).1

theorem begins_of_le_of_le {bound first middle last : Version} (hfirst : bound.begins first)
    (hlast : bound.begins last) (h : first ≤ middle) (h' : middle ≤ last) :
    bound.begins middle := by
  by_cases hbound : bound.components = []
  · obtain ⟨components⟩ := bound
    obtain rfl : components = [] := hbound
    rfl
  · rw [begins_iff hbound] at hfirst hlast ⊢
    exact ⟨le_trans hfirst.1 h, Std.TransCmp.lt_of_isLE_of_lt h' hlast.2⟩

end Version

namespace Comparison

variable {α ε : Type}

def bounds : Comparison α → List α
  | .any => []
  | .eq bound | .lt bound | .le bound | .gt bound | .ge bound => [bound]
  | .between low high => [low, high]

theorem isSome_bounds_iff (test : Comparison α) :
    (test.bounds[0]?.isSome ↔ test.op ≠ .any) ∧ (test.bounds[1]?.isSome ↔ test.op = .between) := by
  cases test <;> simp [bounds, op]

theorem bounds_of_map {make : α → Comparison α} (hmake : ∀ a, (make a).bounds = [a])
    {read : Except ε α} {test : Comparison α} (h : read.map make = .ok test) {bound : α}
    (hbound : bound ∈ test.bounds) : read = .ok bound := by
  cases read with
  | error error => cases h
  | ok a =>
    obtain rfl := Except.ok.inj h
    rw [hmake, List.mem_singleton] at hbound
    rw [hbound]

def map {α β : Type} (f : α → β) : Comparison α → Comparison β
  | .any => .any
  | .eq bound => .eq (f bound)
  | .lt bound => .lt (f bound)
  | .le bound => .le (f bound)
  | .gt bound => .gt (f bound)
  | .ge bound => .ge (f bound)
  | .between low high => .between (f low) (f high)

/-- The texts of the bounds that a comparison has. Where it has none the text may be anything. -/
def Spelled (spells : String → α → Prop) (number number2 : String) : Comparison α → Prop
  | .any => True
  | .eq bound | .lt bound | .le bound | .gt bound | .ge bound => spells number bound
  | .between low high => spells number low ∧ spells number2 high

theorem ofBounds_of_spelled {β : Type} {spells : String → α → Prop}
    {read : String → Except ε β} {f : α → β}
    (hread : ∀ text bound, spells text bound → read text = .ok (f bound))
    {test : Comparison α} {number number2 : String} (h : test.Spelled spells number number2) :
    ofBounds test.op (read number) (read number2) = .ok (test.map f) := by
  cases test with
  | any => rfl
  | between low high =>
    rw [hread number low h.1, hread number2 high h.2]
    rfl
  | _ bound =>
    rw [hread number bound h]
    rfl

theorem mem_bounds_of_ofBounds {op : Operator} {first second : Except ε α} {test : Comparison α}
    (h : ofBounds op first second = .ok test) {bound : α} (hbound : bound ∈ test.bounds) :
    first = .ok bound ∨ second = .ok bound := by
  cases op with
  | any =>
    obtain rfl := Except.ok.inj h
    cases hbound
  | between =>
    cases first with
    | error error => cases h
    | ok low =>
      cases second with
      | error error => cases h
      | ok high =>
        obtain rfl := Except.ok.inj h
        simpa [bounds, eq_comm] using hbound
  | _ => exact .inl (bounds_of_map (fun _ => rfl) h hbound)

end Comparison

namespace VersionCriterion

/-- The criteria that there are: the one for every version, and those that are read. -/
inductive Obtained : VersionCriterion → Prop
  | any : Obtained .any
  | parse {op style number number2 : String} {criterion : VersionCriterion} :
      parse op style number number2 = .ok criterion → Obtained criterion
  | parseDate {op date date2 : String} {criterion : VersionCriterion} :
      parseDate op date date2 = .ok criterion → Obtained criterion

theorem exists_read_of_build {op style number number2 : String}
    {read : VersionStyle → String → Except ParseError Version} {criterion : VersionCriterion}
    (h : build op style number number2 read = .ok criterion) {bound : Version}
    (hbound : bound ∈ criterion.test.bounds) : ∃ style text, read style text = .ok bound := by
  unfold build at h
  split at h
  · cases h
  split at h
  · cases h
  next style _ =>
  split at h
  · cases h
  next test htest =>
    obtain rfl := Except.ok.inj h
    rcases Comparison.mem_bounds_of_ofBounds htest hbound with hread | hread
    · exact ⟨style, number, hread⟩
    · exact ⟨style, number2, hread⟩

theorem build_of_ofBounds {op : Operator} {token number number2 : String} {style : VersionStyle}
    {read : VersionStyle → String → Except ParseError Version} {test : Comparison Version}
    (hstyle : VersionStyle.ofToken? token = some style)
    (h : Comparison.ofBounds op (read style number) (read style number2) = .ok test) :
    build op.token token number number2 read = .ok ⟨style, test⟩ := by
  unfold build
  rw [Operator.ofToken?_token, hstyle]
  dsimp only
  rw [h]

theorem components_ne_nil_of_parse {text : String} {version : Version}
    (h : Version.parse text = .ok version) : version.components ≠ [] := by
  exact (Version.parse_eq_ok_iff.mp h).ne_nil

theorem components_ne_nil_of_ofDate {date : String} {version : Version}
    (h : Version.ofDate date = .ok version) : version.components ≠ [] := by
  obtain ⟨month, day, year, ⟨_, _, _, -, -, -, hyear⟩, hcomponents⟩ := Version.ofDate_eq_ok_iff.mp h
  rw [hcomponents, List.append_assoc]
  exact List.append_ne_nil_of_left_ne_nil hyear.ne_nil _

theorem Obtained.components_ne_nil {criterion : VersionCriterion} (h : Obtained criterion)
    {bound : Version} (hbound : bound ∈ criterion.test.bounds) : bound.components ≠ [] := by
  cases h with
  | any => cases hbound
  | parse h =>
    obtain ⟨style, text, hread⟩ := exists_read_of_build h hbound
    cases style with
    | numerical => exact components_ne_nil_of_parse hread
    | lexical => exact components_ne_nil_of_parse hread
  | parseDate h =>
    obtain ⟨_, date, hread⟩ := exists_read_of_build h hbound
    exact components_ne_nil_of_ofDate hread

section Operators

variable (style : VersionStyle) (bound candidate : Version)

theorem contains_lt_iff : contains ⟨style, .lt bound⟩ candidate ↔ candidate < bound :=
  Ordering.isLT_iff_eq_lt

theorem contains_le_iff : contains ⟨style, .le bound⟩ candidate ↔ candidate ≤ bound := Iff.rfl

theorem contains_gt_iff : contains ⟨style, .gt bound⟩ candidate ↔ bound < candidate :=
  Ordering.isGT_iff_eq_gt.trans Std.OrientedCmp.gt_iff_lt

theorem contains_ge_iff : contains ⟨style, .ge bound⟩ candidate ↔ bound ≤ candidate :=
  Std.OrientedCmp.isGE_iff_isLE

theorem contains_between_iff (low high : Version) :
    contains ⟨style, .between low high⟩ candidate ↔ low ≤ candidate ∧ candidate ≤ high := by
  rw [← contains_ge_iff style, ← contains_le_iff style]
  exact Bool.and_eq_true_iff

end Operators

theorem contains_of_le_of_le {criterion : VersionCriterion} {first middle last : Version}
    (h : first ≤ middle) (h' : middle ≤ last) (hfirst : criterion.contains first)
    (hlast : criterion.contains last) : criterion.contains middle := by
  obtain ⟨style, test⟩ := criterion
  cases test with
  | any => rfl
  | eq bound => exact Version.begins_of_le_of_le hfirst hlast h h'
  | lt bound =>
    rw [contains_lt_iff] at hlast ⊢
    exact Std.TransCmp.lt_of_isLE_of_lt h' hlast
  | le bound =>
    rw [contains_le_iff] at hlast ⊢
    exact Version.le_trans h' hlast
  | gt bound =>
    rw [contains_gt_iff] at hfirst ⊢
    exact Std.TransCmp.lt_of_lt_of_isLE hfirst h
  | ge bound =>
    rw [contains_ge_iff] at hfirst ⊢
    exact Version.le_trans hfirst h
  | between low high =>
    rw [contains_between_iff] at hfirst hlast ⊢
    exact ⟨Version.le_trans hfirst.1 h, Version.le_trans h' hlast.2⟩

/-- A criterion has the bounds that its operator asks for, none of them empty, and contains all
between two versions that it contains. Of two opposite operators exactly one contains a version;
`between` is `>=` and `<=` together; and `=` goes from its bound up to, but without, the bound with
its last component raised. -/
theorem contains_intervals :
    (∀ criterion, Obtained criterion →
      (criterion.test.bounds[0]?.isSome ↔ criterion.op ≠ .any) ∧
      (criterion.test.bounds[1]?.isSome ↔ criterion.op = .between) ∧
      (∀ bound ∈ criterion.test.bounds, bound.components ≠ []) ∧
      ∀ first middle last, first ≤ middle → middle ≤ last → criterion.contains first →
        criterion.contains last → criterion.contains middle) ∧
    ∀ style : VersionStyle,
      (∀ bound candidate,
        contains ⟨style, .ge bound⟩ candidate = !contains ⟨style, .lt bound⟩ candidate) ∧
      (∀ bound candidate,
        contains ⟨style, .gt bound⟩ candidate = !contains ⟨style, .le bound⟩ candidate) ∧
      (∀ low high candidate, contains ⟨style, .between low high⟩ candidate =
        (contains ⟨style, .ge low⟩ candidate && contains ⟨style, .le high⟩ candidate)) ∧
      (∀ low high candidate, high < low →
        contains ⟨style, .between low high⟩ candidate = false) ∧
      (∀ bound candidate, bound.components ≠ [] →
        (contains ⟨style, .eq bound⟩ candidate ↔ bound ≤ candidate ∧
          Version.compareValues candidate.values (bound.values.modifyLast (· + 1)) = .lt)) ∧
      (∀ bound candidate, candidate == bound → contains ⟨style, .eq bound⟩ candidate) ∧
      ∀ bound candidate, candidate < bound → contains ⟨style, .eq bound⟩ candidate = false := by
  constructor
  · intro criterion hobtained
    obtain ⟨hfirst, hsecond⟩ := criterion.test.isSome_bounds_iff
    exact ⟨hfirst, hsecond, fun _ => hobtained.components_ne_nil,
      fun _ _ _ => contains_of_le_of_le⟩
  · intro style
    refine ⟨?_, ?_, fun _ _ _ => rfl, ?_, ?_, ?_, ?_⟩
    · intro bound candidate
      change (compare candidate bound).isGE = !(compare candidate bound).isLT
      cases compare candidate bound <;> rfl
    · intro bound candidate
      change (compare candidate bound).isGT = !(compare candidate bound).isLE
      cases compare candidate bound <;> rfl
    · intro low high candidate hreversed
      rw [← Bool.not_eq_true, contains_between_iff]
      rintro ⟨hlow, hhigh⟩
      exact Version.not_lt.mpr (Version.le_trans hlow hhigh) hreversed
    · intro bound candidate hbound
      exact Version.begins_iff hbound candidate
    · intro bound candidate hequal
      exact Version.begins_of_beq hequal
    · intro bound candidate hbelow
      rw [← Bool.not_eq_true]
      intro hbegins
      exact Version.not_lt.mpr (Version.le_of_begins hbegins) hbelow

/-- The last component of the bound is the largest there is, and the components beyond it are
compared with what it would be raised to. -/
theorem contains_intervals_widestBound :
    let widest : VersionCriterion := ⟨.numerical, .eq ⟨[10, 65535]⟩⟩
    parse "=" "" "10.65535" "" = .ok widest ∧ Obtained widest ∧
      (⟨[10, 65535]⟩ : Version) ≤ ⟨[10, 65535, 3]⟩ ∧
      (⟨[10, 65535, 3]⟩ : Version) ≤ ⟨[10, 65535, 7]⟩ ∧
      widest.contains ⟨[10, 65535, 3]⟩ ∧
      (widest.contains ⟨[11]⟩ ↔ (⟨[10, 65535]⟩ : Version) ≤ ⟨[11]⟩ ∧
        Version.compareValues [11] [10, 65536] = .lt) ∧
      (⟨[10, 65535, 0]⟩ : Version) == ⟨[10, 65535]⟩ ∧ widest.contains ⟨[10, 65535, 0]⟩ ∧
      (⟨[10, 9]⟩ : Version) < ⟨[10, 65535]⟩ ∧ widest.contains ⟨[10, 9]⟩ = false ∧
      contains ⟨.numerical, .between ⟨[10, 65535]⟩ ⟨[10, 9]⟩⟩ ⟨[10, 9, 1]⟩ = false := by
  intro widest
  obtain ⟨hcriteria, hoperators⟩ := contains_intervals
  obtain ⟨-, -, -, hreversed, hequal, hbeq, hbelow⟩ := hoperators .numerical
  have hmajor : Version.SpellsComponent ['1', '0'] 10 := ⟨by simp, by simp, rfl⟩
  have hminor : Version.SpellsComponent ['6', '5', '5', '3', '5'] 65535 := ⟨by simp, by simp, rfl⟩
  have hbound : Version.read "10.65535".toList = .ok ⟨[10, 65535]⟩ :=
    Version.read_eq_ok_iff.mpr (.more hmajor (.last hminor))
  have hread : parse "=" "" "10.65535" "" = .ok widest := by
    apply @build_of_ofBounds .eq _ _ _ .numerical _ _ rfl
    dsimp only [VersionStyle.read, Version.parse]
    rw [hbound]
    rfl
  exact ⟨hread, .parse hread, by decide, by decide,
    (hcriteria widest (.parse hread)).2.2.2 ⟨[10, 65535]⟩ _ ⟨[10, 65535, 7]⟩ (by decide) (by decide)
      (by decide) (by decide),
    hequal ⟨[10, 65535]⟩ ⟨[11]⟩ (by decide), by decide,
    hbeq ⟨[10, 65535]⟩ ⟨[10, 65535, 0]⟩ (by decide), by decide,
    hbelow ⟨[10, 65535]⟩ ⟨[10, 9]⟩ (by decide),
    hreversed ⟨[10, 65535]⟩ ⟨[10, 9]⟩ ⟨[10, 9, 1]⟩ (by decide)⟩

end VersionCriterion

end GpuRules
