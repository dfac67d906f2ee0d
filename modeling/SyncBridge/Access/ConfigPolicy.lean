import Mathlib.Data.List.Infix
import SyncBridge.Services.Footprint
import SyncBridge.Sample

/-!
# The policy on connector configurations

`hasForbiddenConfigKeys` finds a forbidden key wherever it is nested, and only
such keys; and whatever is written to a connector has been checked, so that no
stored configuration contains one.
-/

namespace SyncBridge

open SyncBridge.Foundation SyncBridge.Foundation.Prog

inductive Json.HasKey (key : String) : Json → Prop
  | here {fields : Record} {value : Json} :
      (key, value) ∈ fields → HasKey key (.obj fields)
  | field {fields : Record} {name : String} {value : Json} :
      (name, value) ∈ fields → HasKey key value → HasKey key (.obj fields)
  | item {items : List Json} {value : Json} :
      value ∈ items → HasKey key value → HasKey key (.arr items)

/-- The normalised key contains one of the markers. -/
def ForbiddenKey (key : String) : Prop :=
  ∃ marker ∈ forbiddenConfigKeyMarkers, marker.toList <:+: normalizeKey key

def Json.Forbidden (value : Json) : Prop :=
  ∃ key, value.HasKey key ∧ ForbiddenKey key

/-! ## The check -/

theorem includesMarker_iff {normalized : List Char} {marker : String} :
    includesMarker normalized marker = true ↔
      marker.toList <:+: normalized := by
  simp only [includesMarker, List.any_eq_true, List.mem_tails,
    List.isPrefixOf_iff_prefix]
  constructor
  · rintro ⟨rest, hsuffix, hprefix⟩
    exact hprefix.isInfix.trans hsuffix.isInfix
  · rintro ⟨before, after, rfl⟩
    exact ⟨marker.toList ++ after, ⟨before, by simp⟩, ⟨after, rfl⟩⟩

theorem isForbiddenKey_iff {key : String} :
    isForbiddenKey key = true ↔ ForbiddenKey key := by
  simp only [isForbiddenKey, List.any_eq_true, includesMarker_iff,
    ForbiddenKey]

theorem forbidden_arr {items : List Json} :
    (Json.arr items).Forbidden ↔ ∃ value ∈ items, value.Forbidden := by
  constructor
  · rintro ⟨key, hkey, hforbidden⟩
    cases hkey with
    | item hmem hbelow => exact ⟨_, hmem, key, hbelow, hforbidden⟩
  · rintro ⟨value, hmem, key, hkey, hforbidden⟩
    exact ⟨key, .item hmem hkey, hforbidden⟩

theorem forbidden_obj {fields : Record} :
    (Json.obj fields).Forbidden ↔ ∃ field ∈ fields,
      ForbiddenKey field.1 ∨ field.2.Forbidden := by
  constructor
  · rintro ⟨key, hkey, hforbidden⟩
    cases hkey with
    | here hmem => exact ⟨_, hmem, .inl hforbidden⟩
    | field hmem hbelow => exact ⟨_, hmem, .inr ⟨key, hbelow, hforbidden⟩⟩
  · rintro ⟨⟨name, value⟩, hmem, hforbidden | ⟨key, hkey, hforbidden⟩⟩
    · exact ⟨name, .here hmem, hforbidden⟩
    · exact ⟨key, .field hmem hkey, hforbidden⟩

mutual

theorem hasForbiddenConfigKeys_iff : (value : Json) →
    (hasForbiddenConfigKeys value = true ↔ value.Forbidden)
  | .null | .bool _ | .num _ | .str _ => by
      simp only [hasForbiddenConfigKeys, Bool.false_eq_true, false_iff]
      rintro ⟨key, hkey, -⟩
      cases hkey
  | .arr items => by
      rw [hasForbiddenConfigKeys, forbidden_arr]
      exact anyForbiddenItem_iff items
  | .obj fields => by
      rw [hasForbiddenConfigKeys, forbidden_obj]
      exact anyForbiddenField_iff fields

theorem anyForbiddenItem_iff : (items : List Json) →
    (anyForbiddenItem items = true ↔ ∃ value ∈ items, value.Forbidden)
  | [] => by simp [anyForbiddenItem]
  | item :: items => by
      simp only [anyForbiddenItem, Bool.or_eq_true, List.exists_mem_cons_iff,
        hasForbiddenConfigKeys_iff item, anyForbiddenItem_iff items]

theorem anyForbiddenField_iff : (fields : Record) →
    (anyForbiddenField fields = true ↔ ∃ field ∈ fields,
      ForbiddenKey field.1 ∨ field.2.Forbidden)
  | [] => by simp [anyForbiddenField]
  | (key, value) :: fields => by
      simp only [anyForbiddenField, Bool.or_eq_true, List.exists_mem_cons_iff,
        isForbiddenKey_iff, hasForbiddenConfigKeys_iff value,
        anyForbiddenField_iff fields]

end

theorem not_forbidden_of_safe {configJson : Record}
    (h : ConnectorsService.assertSafeConfig configJson = .ok ()) :
    ¬ (Json.obj configJson).Forbidden := by
  intro hforbidden
  rw [ConnectorsService.assertSafeConfig,
    if_pos ((hasForbiddenConfigKeys_iff _).mpr hforbidden)] at h
  cases h

/-! ## The stored configurations -/

def Op.checksConfig : Op → Prop
  | .connectorCreate data => ¬ data.configJson.Forbidden
  | .connectorUpdate _ data =>
      ∀ json, data.configJson = some json → ¬ json.Forbidden
  | _ => True

variable {env : Env}

theorem checksConfig_of_outside {call : Call} {op : Op}
    (h : call.mayAttemptOutside env op) : op.checksConfig := by
  cases op with
  | connectorCreate data =>
      obtain ⟨configJson, hconfig, hsafe⟩ := h
      simp only [Op.checksConfig, hconfig]
      exact not_forbidden_of_safe hsafe
  | connectorUpdate id data =>
      intro json hjson
      obtain ⟨configJson, rfl, hsafe⟩ := h json hjson
      exact not_forbidden_of_safe hsafe
  | _ => trivial

theorem checksConfig_of_run {op : Op} (h : op.ofRun) : op.checksConfig := by
  cases op with
  | connectorCreate _ | connectorUpdate _ _ => exact h.elim
  | _ => trivial

theorem body_checksConfig (env : Env) (call : Call) :
    (call.body env).Uses Op.checksConfig :=
  body_uses_of (fun _ => checksConfig_of_outside) fun _ => checksConfig_of_run

theorem configs_exec {op : Op} {store store' : Store} {value : op.Res}
    (hchecked : op.checksConfig)
    (hexec : exec env op store = .ok (value, store'))
    (hold : ∀ row ∈ store.connectors, ¬ row.configJson.Forbidden) :
    ∀ row ∈ store'.connectors, ¬ row.configJson.Forbidden := by
  intro row hrow
  rw [exec_effect hexec] at hrow
  rcases connectors_of_effect hrow with hbefore | ⟨data, rfl, rfl⟩ |
    ⟨data, old, hmem, rfl, rfl⟩
  · exact hold row hbefore
  · exact hchecked
  · cases hconfig : data.configJson with
    | none =>
        simpa only [ConnectorData.apply, hconfig, Option.getD_none]
          using hold old hmem
    | some json =>
        simpa only [ConnectorData.apply, hconfig, Option.getD_some]
          using hchecked json hconfig

/-- No stored configuration has a forbidden key at any depth, and the check
rejects nothing but values that have one. -/
theorem no_secret_stored {init : Store} {pool : Platform}
    (hinit : ∀ row ∈ init.connectors, ¬ row.configJson.Forbidden)
    (h : Reachable env init pool) :
    (∀ row ∈ pool.store.connectors, ¬ row.configJson.Forbidden) ∧
      ∀ value, hasForbiddenConfigKeys value = true → value.Forbidden := by
  refine ⟨?_, fun value => (hasForbiddenConfigKeys_iff value).mp⟩
  refine h.keeps (J := fun store : Store =>
    ∀ row ∈ store.connectors, ¬ row.configJson.Forbidden)
    (body_checksConfig env)
    (fun _ _ _ _ _ hop hexec => configs_exec hop hexec) ?_ rfl hinit
  intro event store count store' calls henv
  obtain ⟨clock, jobs, rfl⟩ := Event.apply_store henv
  exact id

/-- A configuration with a nested key is refused, another one is stored. -/
theorem no_secret_stored_of_creates :
    ∃ pool, (platform (Sample.env .sync)).run
        { Sample.store with connectors := [] }.boot
        [.start (.createConnector ⟨"API", .restApi, [("endpoints",
          .arr [.arr [.obj [("api_Key", .str "k")]]])]⟩ Sample.operator),
         .start (.createConnector ⟨"API", .restApi, [("endpoints",
          .arr [.arr [.obj [("url", .str "u")]]])]⟩ Sample.operator),
         .run 1] = some pool ∧
      (pool.tasks.map fun task => task.prog.finished) = [true, false] ∧
      pool.store.connectors.length = 1 ∧
      ∀ row ∈ pool.store.connectors, ¬ row.configJson.Forbidden := by
  have hruns : ((platform (Sample.env .sync)).run
      { Sample.store with connectors := [] }.boot
      [.start (.createConnector ⟨"API", .restApi, [("endpoints",
        .arr [.arr [.obj [("api_Key", .str "k")]]])]⟩ Sample.operator),
       .start (.createConnector ⟨"API", .restApi, [("endpoints",
        .arr [.arr [.obj [("url", .str "u")]]])]⟩ Sample.operator),
       .run 1]).any (fun pool =>
        (pool.tasks.map fun task => task.prog.finished) = [true, false] &&
        pool.store.connectors.length = 1) = true := by
    decide +kernel
  obtain ⟨pool, hrun, htest⟩ := (Option.any_eq_true _ _).mp hruns
  simp only [Bool.and_eq_true, decide_eq_true_eq] at htest
  exact ⟨pool, hrun, htest.1, htest.2,
    (no_secret_stored (by simp) (System.reach_of_run hrun)).1⟩

end SyncBridge
