import GpuRules.RuleSet

/-! The largest of some ids, which is zero if there are none. -/

namespace GpuRules

theorem toNat_max (a b : UInt32) : (max a b).toNat = max a.toNat b.toNat := by
  change (if a ≤ b then b else a).toNat = max a.toNat b.toNat
  split
  · next h =>
    have hle := UInt32.le_iff_toNat_le.mp h
    omega
  · next h =>
    have hlt := mt UInt32.le_iff_toNat_le.mpr h
    omega

theorem toNat_foldl_max (id : UInt32) (ids : List UInt32) :
    (ids.foldl max id).toNat = max id.toNat (ids.foldl max 0).toNat := by
  induction ids generalizing id with
  | nil =>
    change id.toNat = max id.toNat 0
    omega
  | cons next rest ih =>
    have hzero : (0 : UInt32).toNat = 0 := rfl
    rw [List.foldl_cons, List.foldl_cons, ih (max id next), ih (max 0 next), toNat_max, toNat_max]
    omega

theorem le_foldl_max {id : UInt32} {ids : List UInt32} (h : id ∈ ids) : id ≤ ids.foldl max 0 := by
  rw [UInt32.le_iff_toNat_le]
  induction ids with
  | nil => cases h
  | cons next rest ih =>
    rw [List.foldl_cons, toNat_foldl_max, toNat_max]
    rcases List.mem_cons.mp h with rfl | hrest
    · omega
    · have hle := ih hrest
      omega

theorem foldl_max_eq_or_mem (id : UInt32) (ids : List UInt32) :
    ids.foldl max id = id ∨ ids.foldl max id ∈ ids := by
  induction ids generalizing id with
  | nil => exact .inl rfl
  | cons next rest ih =>
    rw [List.foldl_cons]
    rcases ih (max id next) with hfirst | hrest
    · rw [hfirst]
      change (if id ≤ next then next else id) = id ∨ (if id ≤ next then next else id) ∈ next :: rest
      split
      · exact .inr List.mem_cons_self
      · exact .inl rfl
    · exact .inr (List.mem_cons_of_mem next hrest)

namespace RuleSet

theorem maxId_append (version : SchemaVersion) (before after : List Rule) :
    (ofRules version (before ++ after)).maxId =
      max (ofRules version before).maxId (ofRules version after).maxId := by
  apply UInt32.toNat.inj
  rw [toNat_max]
  unfold ofRules
  dsimp only
  rw [List.map_append, List.foldl_append, toNat_foldl_max]

theorem le_maxId (version : SchemaVersion) {rules : List Rule} {rule : Rule} (h : rule ∈ rules) :
    rule.id ≤ (ofRules version rules).maxId :=
  le_foldl_max (List.mem_map_of_mem h)

theorem maxId_eq_zero_or_exists (version : SchemaVersion) (rules : List Rule) :
    (ofRules version rules).maxId = 0 ∨
      ∃ rule ∈ rules, rule.id = (ofRules version rules).maxId := by
  rcases foldl_max_eq_or_mem 0 (rules.map (·.id)) with hzero | hmem
  · exact .inl hzero
  · exact .inr (List.mem_map.mp hmem)

end RuleSet

end GpuRules
