import GpuRules.Config.Criteria

/-! Criteria as words. What is made from some texts is also read from an object that holds these
texts under their keys. A text that the object leaves out is the empty one, or `any` for an operator
that may be left out. -/

namespace GpuRules.Spelling

open Config
open Json (Members)

abbrev Words := String → Option String

def Words.members (words : Words) (keys : List String) : Members :=
  keys.filterMap fun key => (words key).map fun text => (key, .string text)

variable {words : Words} {keys : List String} {key : String}

theorem Words.get?_members (words : Words) (keys : List String) (key : String) :
    (words.members keys).get? key = if key ∈ keys then (words key).map .string else none := by
  unfold members Members.get?
  induction keys with
  | nil => rfl
  | cons first rest ih =>
    by_cases hfirst : key = first
    · subst hfirst
      rw [if_pos List.mem_cons_self]
      cases hword : words key with
      | none =>
        rw [List.filterMap_cons_none (by rw [hword]; rfl), ih, hword]
        exact ite_self none
      | some text =>
        rw [List.filterMap_cons_some (by rw [hword]; rfl), List.lookup_cons, beq_self_eq_true]
        rfl
    · have hother : (key == first) = false := by simpa using hfirst
      have hmem : key ∈ first :: rest ↔ key ∈ rest := by simp [hfirst]
      simp only [hmem, ← ih]
      cases hword : words first with
      | none => rw [List.filterMap_cons_none (by rw [hword]; rfl)]
      | some text =>
        rw [List.filterMap_cons_some (by rw [hword]; rfl), List.lookup_cons, hother]

theorem textAt_members (h : key ∈ keys) :
    textAt (words.members keys) key = .ok ((words key).getD "") := by
  unfold textAt
  rw [Words.get?_members, if_pos h]
  cases words key <;> rfl

theorem operatorOrAny_members (h : "op" ∈ keys) :
    operatorOrAny (words.members keys) = .ok ((words "op").getD "any") := by
  unfold operatorOrAny
  rw [textAt_members h, Words.get?_members, if_pos h]
  cases words "op" <;> rfl

def textKeys : List String := ["op", "value"]

def scoreKeys : List String := ["op", "value", "value2"]

def boundKeys : List String := ["number", "number2", "op"]

def versionKeys : List String := ["number", "number2", "op", "style"]

namespace Words

def parseText (words : Words) : Except CriterionError TextCriterion :=
  TextCriterion.parse ((words "op").getD "") ((words "value").getD "")

def parseScore (words : Words) : Except CriterionError ScoreCriterion :=
  ScoreCriterion.parse ((words "op").getD "") ((words "value").getD "") ((words "value2").getD "")

def parseDate (words : Words) : Except CriterionError VersionCriterion :=
  VersionCriterion.parseDate ((words "op").getD "any") ((words "number").getD "")
    ((words "number2").getD "")

def parseVersion (words : Words) : Except CriterionError VersionCriterion :=
  VersionCriterion.parse ((words "op").getD "any") ((words "style").getD "")
    ((words "number").getD "") ((words "number2").getD "")

end Words

theorem textCriterion_members (words : Words) :
    textCriterion (words.members textKeys) = words.parseText := by
  unfold textCriterion
  rw [textAt_members (by decide), textAt_members (by decide)]
  rfl

theorem scoreCriterion_members (words : Words) :
    scoreCriterion (words.members scoreKeys) = words.parseScore := by
  unfold scoreCriterion
  rw [textAt_members (by decide), textAt_members (by decide), textAt_members (by decide)]
  rfl

theorem dateCriterion_members (words : Words) :
    dateCriterion (words.members boundKeys) = words.parseDate := by
  unfold dateCriterion
  rw [operatorOrAny_members (by decide), textAt_members (by decide), textAt_members (by decide)]
  rfl

theorem versionCriterion_members (words : Words) :
    versionCriterion (words.members versionKeys) = words.parseVersion := by
  unfold versionCriterion
  rw [operatorOrAny_members (by decide), textAt_members (by decide), textAt_members (by decide),
    textAt_members (by decide)]
  rfl

structure OsWords where
  type : String
  release : Option Words

namespace OsWords

def members (words : OsWords) : Members :=
  ("type", .string words.type) ::
    (words.release.map fun release => ("version", .object (release.members boundKeys))).toList

def parse (words : OsWords) : Except CriterionError OsCriterion :=
  let release := words.release.getD fun _ => none
  OsCriterion.parse words.type ((release "op").getD "any") ((release "number").getD "")
    ((release "number2").getD "")

end OsWords

theorem osCriterion_members (words : OsWords) : osCriterion words.members = words.parse := by
  obtain ⟨type, release⟩ := words
  cases release with
  | none => rfl
  | some release =>
    have hop : operatorOrAny (release.members boundKeys) = _ := operatorOrAny_members (by decide)
    have hnumber : textAt (release.members boundKeys) "number" = _ := textAt_members (by decide)
    have hnumber2 : textAt (release.members boundKeys) "number2" = _ := textAt_members (by decide)
    change (do
      OsCriterion.parse type (← operatorOrAny (release.members boundKeys))
        (← textAt (release.members boundKeys) "number")
        (← textAt (release.members boundKeys) "number2")) = _
    rw [hop, hnumber, hnumber2]
    rfl

end GpuRules.Spelling
