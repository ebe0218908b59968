import JavaOutline.Symbol.View
import JavaOutline.Proofs.Json.Indentation
import JavaOutline.Proofs.Json.KeyOrder
import JavaOutline.Proofs.Symbol.Codec

/-! Views in JSON. Every view of a store has a spelling, no object in it has a key twice, and the
symbols themselves can be read back from theirs. -/
namespace JavaOutline

def Symbol.sortedFields (s : Symbol) : List (String × Json) :=
  s.fields.mergeSort fun a b => Json.keyLe a.1 b.1

theorem Symbol.sortedFields_perm (s : Symbol) : s.sortedFields.Perm s.fields :=
  List.mergeSort_perm _ _

/-- Sorting the keys of a symbol's object gives its sorted fields. -/
theorem Symbol.sortKeys_toJson (s : Symbol) : s.toJson.sortKeys = .obj s.sortedFields := by
  have hValues : (s.fields.map fun f => (f.1, f.2.sortKeys)) = s.fields := by
    simp [Symbol.fields, Json.sortKeys]
  rw [Symbol.toJson_eq, Json.sortKeys, Json.sortKeysOf_eq, hValues]
  rfl

theorem Symbol.keysPairwise_toJson (s : Symbol) : s.toJson.KeysPairwise (· ≠ ·) := by
  rw [Symbol.toJson_eq]
  apply Json.KeysPairwise.obj s.nodup_keys
  simp [Symbol.fields]

/-- The order of the fields does not matter for reading them. -/
theorem Decode.symbol?_sortedFields (s : Symbol) : symbol? (.obj s.sortedFields) = some s := by
  rw [symbol?]
  apply symbolOfFields?_of_subset
  · exact (s.sortedFields_perm.map Prod.fst).nodup_iff.mpr s.nodup_keys
  · exact s.sortedFields_perm.symm.subset

namespace Store

/-- Every view has a spelling. -/
theorem isPlain_toValue (s : Store) (view : View) : (s.toValue view).IsPlain := by
  cases view with
  | symbols => exact Json.isPlain_sortKeys s.isPlain_toJson
  | docs =>
      apply Json.isPlain_sortKeys
      simp [docTargets, Doc.Target.toJson]
  | classes =>
      apply Json.isPlain_sortKeys
      simp [classOverviews, ClassOverview.toJson]
  | index =>
      apply Json.isPlain_sortKeys
      simp [indexRecords, IndexRecord.toJson, IndexMetadata.toJson]

/-- In every view the keys are in ascending order at every depth. -/
theorem keysPairwise_toValue (s : Store) (view : View) :
    (s.toValue view).KeysPairwise (· < ·) := by
  cases view with
  | symbols =>
      apply Json.keysPairwise_sortKeys
      simp [toJson, Symbol.keysPairwise_toJson]
  | docs =>
      apply Json.keysPairwise_sortKeys
      simp [docTargets, Doc.Target.toJson]
  | classes =>
      apply Json.keysPairwise_sortKeys
      simp [classOverviews, ClassOverview.toJson]
  | index =>
      apply Json.keysPairwise_sortKeys
      simp [indexRecords, IndexRecord.toJson, IndexMetadata.toJson]

theorem toValue_symbols (s : Store) :
    s.toValue .symbols = .arr ((s.symbols.map Symbol.sortedFields).map .obj) := by
  rw [toValue, toJson, Json.sortKeys, Json.sortKeysIn_eq, List.map_map, List.map_map]
  congr 1
  exact List.map_congr_left fun x _ => x.sortKeys_toJson

/-- The view of the symbols describes the store it was made of. -/
theorem ofJson?_toValue_symbols (s : Store) : ofJson? (s.toValue .symbols) = some s := by
  rw [toValue_symbols, List.map_map, ofJson?]
  exact congrArg (Option.map Store.mk) (mapM_map_eq_some Decode.symbol?_sortedFields s.symbols)

/-- The text of a view spells that view, with the keys of every object in order and every line
indented by two spaces for each level. The store can be read back from the text of its symbols. -/
theorem parse?_toText (s : Store) (view : View) :
    Json.parse? (s.toText view) = some (s.toValue view) ∧
      (s.toValue view).KeysPairwise (· < ·) ∧ Json.IsIndented (s.toText view) ∧
      load? (s.toText .symbols) = some s := by
  have hParse (view : View) : Json.parse? (s.toText view) = some (s.toValue view) :=
    (Json.parse?_toPretty (s.isPlain_toValue view)).1
  refine ⟨hParse view, s.keysPairwise_toValue view,
    Json.isIndented_toPretty (s.isPlain_toValue view), ?_⟩
  rw [load?, hParse .symbols]
  exact s.ofJson?_toValue_symbols

end Store

end JavaOutline
