import GpuRules.Conditions
import GpuRules.Proofs.Equality.Criteria

/-! Equal conditions. Slot by slot they ask the same of any hardware, but for the bounds of `=` in
the three slots that hold versions. -/

namespace GpuRules

structure Conditions.Equal (conditions conditions' : Conditions) : Prop where
  os : conditions.os == conditions'.os
  vendorId : conditions.vendorId = conditions'.vendorId
  deviceIds : conditions.deviceIds = conditions'.deviceIds
  multiGpuStyle : conditions.multiGpuStyle = conditions'.multiGpuStyle
  driverVendor : conditions.driverVendor = conditions'.driverVendor
  driverVersion : conditions.driverVersion == conditions'.driverVersion
  driverDate : conditions.driverDate == conditions'.driverDate
  glVendor : conditions.glVendor = conditions'.glVendor
  glRenderer : conditions.glRenderer = conditions'.glRenderer
  perfGraphics : conditions.perfGraphics == conditions'.perfGraphics
  perfGaming : conditions.perfGaming == conditions'.perfGaming
  perfOverall : conditions.perfOverall == conditions'.perfOverall

theorem Conditions.equal_of_beq {conditions conditions' : Conditions}
    (h : conditions == conditions') : conditions.Equal conditions' := by
  change instBEqConditions.beq conditions conditions' = true at h
  obtain ⟨⟩ := conditions
  obtain ⟨⟩ := conditions'
  simp only [instBEqConditions.beq, Bool.and_eq_true, beq_iff_eq] at h
  obtain ⟨h1, h2, h3, h4, h5, h6, h7, h8, h9, h10, h11, h12⟩ := h
  exact ⟨h1, h2, h3, h4, h5, h6, h7, h8, h9, h10, h11, h12⟩

/-- Corresponding bounds of `=` have as many components. -/
structure Conditions.SameWidths (conditions conditions' : Conditions) : Prop where
  os : ∀ criterion ∈ conditions.os, ∀ criterion' ∈ conditions'.os,
    criterion.release.SameWidth criterion'.release
  driverVersion : ∀ criterion ∈ conditions.driverVersion, ∀ criterion' ∈ conditions'.driverVersion,
    criterion.SameWidth criterion'
  driverDate : ∀ criterion ∈ conditions.driverDate, ∀ criterion' ∈ conditions'.driverDate,
    criterion.SameWidth criterion'

theorem all_eq_of_beq {α : Type} [BEq α] {value value' : Option α} {passes passes' : α → Bool}
    (h : value == value')
    (hpasses : ∀ a ∈ value, ∀ b ∈ value', a == b → passes a = passes' b) :
    value.all passes = value'.all passes' := by
  cases value with
  | none =>
    cases value' with
    | none => rfl
    | some b => cases h
  | some a =>
    cases value' with
    | none => cases h
    | some b => exact hpasses a rfl b rfl h

theorem ScoreCriterion.admits_eq_of_beq {criterion criterion' : ScoreCriterion}
    (h : criterion == criterion') (score : Score) :
    criterion.admits score = criterion'.admits score := by
  unfold admits
  rw [contains_eq_of_beq h]

theorem containsRead_eq_of_beq {criterion criterion' : VersionCriterion}
    (h : criterion == criterion') (hwidth : criterion.SameWidth criterion')
    (read : Except ParseError Version) :
    Conditions.containsRead criterion read = Conditions.containsRead criterion' read := by
  cases read with
  | error error => rfl
  | ok version => exact VersionCriterion.contains_eq_of_beq h hwidth version

theorem Conditions.holds_eq_of_beq {conditions conditions' : Conditions}
    (h : conditions == conditions') (hwidths : conditions.SameWidths conditions') (os : OsType)
    (hardware : Hardware) (slot : Slot) :
    conditions.holds os hardware slot = conditions'.holds os hardware slot := by
  have hequal := equal_of_beq h
  cases slot with
  | os =>
    apply all_eq_of_beq hequal.os
    intro a ha b hb hab
    exact OsCriterion.contains_eq_of_beq hab (hwidths.os a ha b hb) os hardware.release
  | vendorId => simp only [holds, hequal.vendorId]
  | deviceId => simp only [holds, hequal.deviceIds]
  | multiGpuStyle => simp only [holds, hequal.multiGpuStyle]
  | driverVendor => simp only [holds, hequal.driverVendor]
  | driverVersion =>
    apply all_eq_of_beq hequal.driverVersion
    intro a ha b hb hab
    rw [(VersionCriterion.beq_iff.mp hab).1]
    exact containsRead_eq_of_beq hab (hwidths.driverVersion a ha b hb) _
  | driverDate =>
    apply all_eq_of_beq hequal.driverDate
    intro a ha b hb hab
    exact containsRead_eq_of_beq hab (hwidths.driverDate a ha b hb) _
  | glVendor => simp only [holds, hequal.glVendor]
  | glRenderer => simp only [holds, hequal.glRenderer]
  | perfGraphics =>
    apply all_eq_of_beq hequal.perfGraphics
    intro a _ b _ hab
    exact ScoreCriterion.admits_eq_of_beq hab _
  | perfGaming =>
    apply all_eq_of_beq hequal.perfGaming
    intro a _ b _ hab
    exact ScoreCriterion.admits_eq_of_beq hab _
  | perfOverall =>
    apply all_eq_of_beq hequal.perfOverall
    intro a _ b _ hab
    exact ScoreCriterion.admits_eq_of_beq hab _

theorem Conditions.admits_eq_of_beq {conditions conditions' : Conditions}
    (h : conditions == conditions') (hwidths : conditions.SameWidths conditions') (os : OsType)
    (hardware : Hardware) : conditions.admits os hardware = conditions'.admits os hardware := by
  unfold admits
  rw [funext (holds_eq_of_beq h hwidths os hardware)]

end GpuRules
