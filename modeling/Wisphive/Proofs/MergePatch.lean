import Wisphive.ConfigUpdates
import Wisphive.Foundation.JsonPatch

/-! The merge of a configuration patch follows RFC 7386. -/

namespace Wisphive
open Foundation

/-- The merge of the web server. -/
def jsonMergePatch (target patch : Json) : Json :=
  target.mergePatch patch

section
variable {target patch : Json} {path : List String} {key : String} {named : Json.Members}

theorem descend_jsonMergePatch (distinct : patch.Distinct) (given : Json.descend path patch = some (.object named)) :
    Json.descend (path ++ [key]) (jsonMergePatch target patch) =
      match named.lookup key with
      | none => Json.descend (path ++ [key]) target
      | some .null => none
      | some value => some (jsonMergePatch ((Json.descend (path ++ [key]) target).getD .null) value) := by
  obtain ⟨members, rfl⟩ : ∃ members, patch = .object members := by
    cases patch with
    | object members => exact ⟨members, rfl⟩
    | null | bool _ | number _ | string _ | array _ => cases path <;> cases given
  exact Json.descend_mergePatch path distinct given

theorem descend_unnamed (distinct : patch.Distinct) (given : Json.descend path patch = some (.object named))
    (unnamed : key ∉ named.map Prod.fst) :
    Json.descend (path ++ [key]) (jsonMergePatch target patch) = Json.descend (path ++ [key]) target := by
  rw [descend_jsonMergePatch distinct given, Json.lookup_eq_none.mpr unnamed]

/-- Only a null that stood in the target is left. -/
theorem unnamed_of_null (distinct : patch.Distinct) (given : Json.descend path patch = some (.object named))
    (left : Json.descend (path ++ [key]) (jsonMergePatch target patch) = some .null) :
    key ∉ named.map Prod.fst ∧ Json.descend (path ++ [key]) target = some .null := by
  rw [descend_jsonMergePatch distinct given] at left
  cases found : named.lookup key with
  | none =>
    rw [found] at left
    exact ⟨Json.lookup_eq_none.mp found, left⟩
  | some value =>
    rw [found] at left
    cases value with
    | object members => simp [jsonMergePatch, Json.mergePatch] at left
    | null | bool _ | number _ | string _ | array _ => simp [jsonMergePatch, Json.mergePatch] at left

end

/-- The merge is the one of the RFC, a second time it changes nothing, and at every depth
names that the patch leaves out are kept and nulls of the patch are not. -/
theorem json_merge_patch_rfc (target patch : Json) (old : target.Distinct) (new : patch.Distinct) :
    Json.sorted (jsonMergePatch target patch) = Json.sorted (Json.rfcMergePatch (some target) patch) ∧
    Json.sorted (jsonMergePatch (jsonMergePatch target patch) patch) = Json.sorted (jsonMergePatch target patch) ∧
    ∀ path key named, Json.descend path patch = some (.object named) →
      (key ∉ named.map Prod.fst →
        Json.descend (path ++ [key]) (jsonMergePatch target patch) = Json.descend (path ++ [key]) target) ∧
      (Json.descend (path ++ [key]) (jsonMergePatch target patch) = some .null →
        key ∉ named.map Prod.fst ∧ Json.descend (path ++ [key]) target = some .null) := by
  refine ⟨Json.sorted_mergePatch patch new (some target) old, Json.sorted_mergePatch_mergePatch patch new target old, ?_⟩
  intro path key named given
  exact ⟨descend_unnamed new given, unnamed_of_null new given⟩

/-- `{"a": {"b": 1, "c": null}}` under `{"a": {"b": null, "d": {"e": null}}}` -/
theorem json_merge_patch_rfc_nested :
    Json.sorted (jsonMergePatch
        (.object [("a", .object [("b", .number (.integer 1)), ("c", .null)])])
        (.object [("a", .object [("b", .null), ("d", .object [("e", .null)])])])) =
      Json.sorted (Json.rfcMergePatch
        (some (.object [("a", .object [("b", .number (.integer 1)), ("c", .null)])]))
        (.object [("a", .object [("b", .null), ("d", .object [("e", .null)])])])) ∧
    jsonMergePatch (.object [("a", .object [("b", .number (.integer 1)), ("c", .null)])])
        (.object [("a", .object [("b", .null), ("d", .object [("e", .null)])])]) =
      .object [("a", .object [("c", .null), ("d", .object [])])] :=
  ⟨(json_merge_patch_rfc _ _ (by simp [Json.Distinct, Json.DistinctMembers])
    (by simp [Json.Distinct, Json.DistinctMembers])).1, by decide +kernel⟩

end Wisphive
