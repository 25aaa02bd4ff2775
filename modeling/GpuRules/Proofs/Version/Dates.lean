import GpuRules.Proofs.Reading.Value
import GpuRules.Proofs.Version.Grammar

/-! Driver dates. Month, day and year are put in another order before they are read as a version, so
each of them may have dots of its own. Such a date is a longer version; the dates without dots are
those that are read as year, month and day. -/

namespace GpuRules.Version

open Config (Report.toOption_eq_some_iff Report.toOption_mapError)

/-- The documented form of a date: month, day and year are a run of digits each. -/
def SpellsDate (text : List Char) (month day year : UInt16) : Prop :=
  ∃ m d y, text = m ++ '-' :: d ++ '-' :: y ∧
    SpellsComponent m month ∧ SpellsComponent d day ∧ SpellsComponent y year

/-- The form of a date that is read: month, day and year are each spelled as versions are. -/
def SpellsParts (text : List Char) (month day year : List UInt16) : Prop :=
  ∃ m d y, text = m ++ '-' :: d ++ '-' :: y ∧ Spells m month ∧ Spells d day ∧ Spells y year

theorem spellsParts_singletons_iff {text : List Char} {month day year : UInt16} :
    SpellsParts text [month] [day] [year] ↔ SpellsDate text month day year := by
  simp only [SpellsParts, SpellsDate, spells_singleton_iff]

namespace SpellsParts

variable {text : List Char} {month day year : List UInt16}

theorem dot_notMem_iff (h : SpellsParts text month day year) :
    '.' ∉ text ↔ ∃ m d y, month = [m] ∧ day = [d] ∧ year = [y] := by
  obtain ⟨m, d, y, rfl, hmonth, hday, hyear⟩ := h
  have hparts : '.' ∉ m ++ '-' :: d ++ '-' :: y ↔ '.' ∉ m ∧ '.' ∉ d ∧ '.' ∉ y := by simp
  rw [hparts, hmonth.dot_notMem_iff, hday.dot_notMem_iff, hyear.dot_notMem_iff]
  constructor
  · rintro ⟨⟨m, rfl⟩, ⟨d, rfl⟩, ⟨y, rfl⟩⟩
    exact ⟨m, d, y, rfl, rfl, rfl⟩
  · rintro ⟨m, d, y, rfl, rfl, rfl⟩
    exact ⟨⟨m, rfl⟩, ⟨d, rfl⟩, ⟨y, rfl⟩⟩

theorem eq_singletons (h : SpellsParts text month day year) {m d y : UInt16}
    (hthree : year ++ month ++ day = [y, m, d]) : month = [m] ∧ day = [d] ∧ year = [y] := by
  obtain ⟨_, _, _, -, hmonth, hday, hyear⟩ := h
  obtain ⟨m', ms, rfl⟩ := List.exists_cons_of_ne_nil hmonth.ne_nil
  obtain ⟨d', ds, rfl⟩ := List.exists_cons_of_ne_nil hday.ne_nil
  obtain ⟨y', ys, rfl⟩ := List.exists_cons_of_ne_nil hyear.ne_nil
  have hlength := congrArg List.length hthree
  simp only [List.length_append, List.length_cons, List.length_nil] at hlength
  obtain rfl : ms = [] := List.length_eq_zero_iff.mp (by omega)
  obtain rfl : ds = [] := List.length_eq_zero_iff.mp (by omega)
  obtain rfl : ys = [] := List.length_eq_zero_iff.mp (by omega)
  obtain ⟨rfl, rfl, rfl⟩ : y' = y ∧ m' = m ∧ d' = d := by simpa using hthree
  exact ⟨rfl, rfl, rfl⟩

end SpellsParts

theorem join_hyphens (m d y : List Char) :
    ['-'].intercalate [m, d, y] = m ++ '-' :: d ++ '-' :: y := by
  simp [List.intercalate]

theorem ofDate_eq_ok_iff {date : String} {components : List UInt16} :
    ofDate date = .ok ⟨components⟩ ↔
      ∃ month day year, SpellsParts date.toList month day year ∧
        components = year ++ month ++ day := by
  constructor
  · intro h
    unfold ofDate at h
    split at h
    next m d y hsplit =>
      have htext : ['-'].intercalate (date.toList.splitOn '-') = date.toList :=
        List.intercalate_splitOn '-'
      rw [hsplit, join_hyphens] at htext
      rw [← Report.toOption_eq_some_iff, Report.toOption_mapError, Report.toOption_eq_some_iff,
        read_eq_ok_iff, spells_append_iff] at h
      obtain ⟨front, day, hfront, hday, rfl⟩ := h
      obtain ⟨year, month, hyear, hmonth, rfl⟩ := spells_append_iff.mp hfront
      exact ⟨month, day, year, ⟨m, d, y, htext.symm, hmonth, hday, hyear⟩, rfl⟩
    · cases h
  · rintro ⟨month, day, year, ⟨m, d, y, htext, hmonth, hday, hyear⟩, rfl⟩
    -- With no hyphen inside a part, the date is cut just where the parts were joined.
    have hhyphen {text : List Char} {components : List UInt16} (h : Spells text components) :
        '-' ∉ text := h.notMem (by decide) (by decide)
    have hsplit : date.toList.splitOn '-' = [m, d, y] := by
      rw [htext, ← join_hyphens]
      apply List.splitOn_intercalate
      · simp [hhyphen hmonth, hhyphen hday, hhyphen hyear]
      · exact List.cons_ne_nil _ _
    have hspells : Spells (y ++ '.' :: m ++ '.' :: d) (year ++ month ++ day) :=
      spells_append_iff.mpr
        ⟨_, _, spells_append_iff.mpr ⟨_, _, hyear, hmonth, rfl⟩, hday, rfl⟩
    unfold ofDate
    simp only [hsplit, read_eq_ok_iff.mpr hspells]
    rfl

theorem error_of_ofDate {date : String} {error : ParseError} (h : ofDate date = .error error) :
    error = ⟨date, .notADate⟩ := by
  unfold ofDate at h
  split at h
  next m d y _ =>
    cases hread : read (y ++ '.' :: m ++ '.' :: d) with
    | ok version => rw [hread] at h; cases h
    | error reason => rw [hread] at h; exact (Except.error.inj h).symm
  · exact (Except.error.inj h).symm

/-- A text is read as a date if its three parts are spelled as versions. What is read is year, month
and day, one component each, just if the text has the documented form, and among the dates that are
read those are the ones without dots. -/
theorem ofDate_spec (date : String) :
    (∀ components, ofDate date = .ok ⟨components⟩ ↔
      ∃ month day year, SpellsParts date.toList month day year ∧
        components = year ++ month ++ day) ∧
    (∀ month day year,
      ofDate date = .ok ⟨[year, month, day]⟩ ↔ SpellsDate date.toList month day year) ∧
    (∀ version, ofDate date = .ok version →
      ('.' ∉ date.toList ↔ ∃ month day year, SpellsDate date.toList month day year)) ∧
    ∀ error, ofDate date = .error error → error = ⟨date, .notADate⟩ := by
  refine ⟨fun components => ofDate_eq_ok_iff, ?_, ?_, fun error => error_of_ofDate⟩
  · intro m d y
    rw [ofDate_eq_ok_iff, ← spellsParts_singletons_iff]
    constructor
    · rintro ⟨month, day, year, hparts, hcomponents⟩
      obtain ⟨rfl, rfl, rfl⟩ := hparts.eq_singletons hcomponents.symm
      exact hparts
    · intro hparts
      exact ⟨_, _, _, hparts, rfl⟩
  · rintro ⟨components⟩ h
    obtain ⟨month, day, year, hparts, -⟩ := ofDate_eq_ok_iff.mp h
    constructor
    · intro hdot
      obtain ⟨m, d, y, rfl, rfl, rfl⟩ := hparts.dot_notMem_iff.mp hdot
      exact ⟨m, d, y, spellsParts_singletons_iff.mp hparts⟩
    · rintro ⟨m, d, y, hdate⟩
      exact (spellsParts_singletons_iff.mpr hdate).dot_notMem_iff.mpr ⟨m, d, y, rfl, rfl, rfl⟩

/-- A day with a dot is let through, and month and day are followed by a component of no meaning. -/
theorem ofDate_dottedDay :
    ofDate "03-21.7-2013" = .ok ⟨[2013, 3, 21, 7]⟩ ∧
      ¬∃ month day year, SpellsDate "03-21.7-2013".toList month day year := by
  constructor
  · have hread : (ofDate "03-21.7-2013").toOption.map (·.components) = some [2013, 3, 21, 7] := by
      decide +kernel
    obtain ⟨⟨_⟩, hversion, rfl⟩ := Option.map_eq_some_iff.mp hread
    exact Report.toOption_eq_some_iff.mp hversion
  · rintro ⟨m, d, y, hdate⟩
    have hdot := (spellsParts_singletons_iff.mpr hdate).dot_notMem_iff.mpr ⟨m, d, y, rfl, rfl, rfl⟩
    exact hdot (by decide)

end GpuRules.Version
