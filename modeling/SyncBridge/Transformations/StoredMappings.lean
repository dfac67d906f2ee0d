import SyncBridge.Sample
import SyncBridge.Services.Footprint
import SyncBridge.Transformations.Compile

/-!
# Stored mappings

Whatever is written as the mapping of a pipeline has been validated, so that
each stored mapping compiles, also when its keys come back in another order.
-/

namespace SyncBridge

open SyncBridge.Foundation SyncBridge.Foundation.Prog
open TransformationEngineService

variable {runtime : Runtime} {env : Env}

def Json.Valid (runtime : Runtime) (mappingJson : Json) : Prop :=
  ∃ mapping fields, mappingJson = .obj mapping ∧
    Compiles runtime (.obj mapping) fields

theorem valid_of_assert {mapping : Record}
    (hengine : env.engine = TransformationEngineService.engine runtime)
    (h : PipelinesService.assertValidMapping env mapping = .ok ()) :
    (Json.obj mapping).Valid runtime := by
  simp only [PipelinesService.assertValidMapping,
    TransformationEngine.validateMapping, hengine, engine] at h
  cases hcompiled : compileMapping runtime (.obj mapping) with
  | ok fields => exact ⟨mapping, fields, rfl, compileMapping_ok_iff.mp hcompiled⟩
  | error failure =>
      rw [hcompiled] at h
      cases failure <;> cases h

theorem Json.Valid.reordered {mappingJson mappingJson' : Json}
    (hsame : mappingJson.Reordered mappingJson')
    (h : mappingJson.Valid runtime) : mappingJson'.Valid runtime := by
  obtain ⟨mapping, fields, rfl, hfields⟩ := h
  cases hsame with
  | refl => exact ⟨mapping, fields, rfl, hfields⟩
  | @obj _ mapping' keys values =>
      have hreordered : Json.Reordered (.obj mapping) (.obj mapping') :=
        .obj keys values
      obtain ⟨fields', hfields'⟩ := hfields.reordered hreordered
      exact ⟨mapping', fields', rfl, hfields'⟩

/-! ## The writes -/

def Op.checksMapping (runtime : Runtime) : Op → Prop
  | .pipelineCreate data => data.mappingJson.Valid runtime
  | .pipelineUpdate _ data =>
      ∀ json, data.mappingJson = some json → json.Valid runtime
  | _ => True

theorem checksMapping_of_outside {call : Call} {op : Op}
    (hengine : env.engine = TransformationEngineService.engine runtime)
    (h : call.mayAttemptOutside env op) : op.checksMapping runtime := by
  cases op with
  | pipelineCreate data =>
      obtain ⟨dto, user, -, hmapping, hvalid⟩ := h
      simp only [Op.checksMapping, hmapping]
      exact valid_of_assert hengine hvalid
  | pipelineUpdate id data =>
      intro json hjson
      obtain ⟨mapping, rfl, hvalid⟩ := h.2 json hjson
      exact valid_of_assert hengine hvalid
  | _ => trivial

theorem checksMapping_of_run {op : Op} (h : op.ofRun) :
    op.checksMapping runtime := by
  cases op with
  | pipelineCreate _ => exact h.elim
  | pipelineUpdate id data =>
      intro json hjson
      obtain ⟨time, rfl⟩ | ⟨cursorValue, rfl⟩ := h <;> cases hjson
  | _ => trivial

theorem body_checksMapping
    (hengine : env.engine = TransformationEngineService.engine runtime)
    (call : Call) : (call.body env).Uses (Op.checksMapping runtime) :=
  body_uses_of (fun _ => checksMapping_of_outside hengine)
    fun _ => checksMapping_of_run

theorem mappings_exec {op : Op} {store store' : Store} {value : op.Res}
    (hchecked : op.checksMapping runtime)
    (hexec : exec env op store = .ok (value, store'))
    (hold : ∀ row ∈ store.pipelines, row.mappingJson.Valid runtime) :
    ∀ row ∈ store'.pipelines, row.mappingJson.Valid runtime := by
  intro row hrow
  rw [exec_effect hexec] at hrow
  rcases pipelines_of_effect hrow with hbefore | ⟨data, rfl, rfl⟩ |
    ⟨data, old, hmem, rfl, rfl⟩
  · exact hold row hbefore
  · exact hchecked
  · cases hmapping : data.mappingJson with
    | none =>
        simpa only [PipelineData.apply, hmapping, Option.getD_none]
          using hold old hmem
    | some json =>
        simpa only [PipelineData.apply, hmapping, Option.getD_some]
          using hchecked json hmapping

theorem mappings_valid {init : Store} {pool : Platform}
    (hengine : env.engine = TransformationEngineService.engine runtime)
    (hinit : ∀ row ∈ init.pipelines, row.mappingJson.Valid runtime)
    (h : Reachable env init pool) :
    ∀ row ∈ pool.store.pipelines, row.mappingJson.Valid runtime := by
  refine h.keeps (J := fun store : Store =>
    ∀ row ∈ store.pipelines, row.mappingJson.Valid runtime)
    (body_checksMapping hengine)
    (fun _ _ _ _ _ hop hexec => mappings_exec hop hexec) ?_ rfl hinit
  intro event store count store' calls henv
  obtain ⟨clock, jobs, rfl⟩ := Event.apply_store henv
  exact id

/-! ## The readers -/

/-- `processWebhookForPipeline` once the mapping has compiled. -/
def processCompiledWebhook (eventId pipelineId : Id)
    (compiledMapping : List NormalizedMappingField) (payload : Record)
    (externalId : String) (syncRunId : Id) (actor : AuditActor) :
    Body (Nat × Nat) := do
  let transformed ← await (.transform payload compiledMapping)
  if transformed.errors.length > 0 then
    WebhooksService.failWebhookRun eventId pipelineId syncRunId externalId
      "One or more records failed during processing."
      transformed.errors.length actor
  else
    WebhooksService.storeWebhookRecord eventId pipelineId syncRunId externalId
      payload transformed.normalized actor

/-- No reader of the mapping gets into its branch for a mapping that does not
compile. -/
structure CompilesForReaders (env : Env) (mappingJson : Json)
    (fields : List NormalizedMappingField) : Prop where
  preview : PipelinesService.compileMappingOrThrow env mappingJson = .ok fields
  run : SyncRunsService.compileMappingOrThrow env mappingJson = .ok fields
  webhook : ∀ eventId pipelineId payload externalId syncRunId actor,
    WebhooksService.processWebhookForPipeline env eventId pipelineId
        mappingJson payload externalId syncRunId actor =
      processCompiledWebhook eventId pipelineId fields payload externalId
        syncRunId actor

theorem compilesForReaders {mappingJson : Json}
    {fields : List NormalizedMappingField}
    (h : env.engine.compileMapping mappingJson = .ok fields) :
    CompilesForReaders env mappingJson fields where
  preview := by rw [PipelinesService.compileMappingOrThrow, h]
  run := by rw [SyncRunsService.compileMappingOrThrow, h]
  webhook eventId pipelineId payload externalId syncRunId actor := by
    simp only [WebhooksService.processWebhookForPipeline, h,
      processCompiledWebhook]

/-- Each stored mapping compiles, in whatever order its keys are read back, to
one field for each entry. -/
theorem stored_mappings_compile {init : Store} {pool : Platform}
    {row : SyncPipeline} {mappingJson : Json}
    (hengine : env.engine = TransformationEngineService.engine runtime)
    (hinit : ∀ row ∈ init.pipelines, row.mappingJson.Valid runtime)
    (h : Reachable env init pool) (hrow : row ∈ pool.store.pipelines)
    (hsame : row.mappingJson.Reordered mappingJson) :
    ∃ entries fields,
      extractMappingCandidates mappingJson = .ok (.ok entries) ∧
      compileMapping runtime mappingJson = .ok fields ∧
      fields.length = entries.length ∧
      CompilesForReaders env mappingJson fields := by
  obtain ⟨mapping, fields, rfl, hcompiles⟩ :=
    (mappings_valid hengine hinit h row hrow).reordered hsame
  obtain ⟨entries, hextract, hfields⟩ := hcompiles
  have hcompiled : compileMapping runtime (.obj mapping) = .ok fields :=
    compileMapping_ok_iff.mpr ⟨entries, hextract, hfields⟩
  refine ⟨entries, fields, hextract, hcompiled, hfields.length_eq.symm,
    compilesForReaders ?_⟩
  rw [hengine]
  exact hcompiled

def twoFields : Record :=
  [("name", .str "contact.name"),
   ("mail", .obj [("path", .str "contact.mail"), ("required", .bool true)])]

def twoFieldsReordered : Record :=
  [("mail", .obj [("required", .bool true), ("path", .str "contact.mail")]),
   ("name", .str "contact.name")]

theorem reordered_twoFields :
    Json.Reordered (.obj twoFields) (.obj twoFieldsReordered) := by
  refine .obj (by decide) fun key value value' hfirst hsecond => ?_
  simp only [twoFields, twoFieldsReordered, List.mem_cons, List.not_mem_nil,
    or_false, Prod.mk.injEq] at hfirst hsecond
  rcases hfirst with ⟨rfl, rfl⟩ | ⟨rfl, rfl⟩
  · obtain ⟨heq, -⟩ | ⟨-, rfl⟩ := hsecond
    · exact absurd heq (by decide)
    · exact .refl _
  · obtain ⟨-, rfl⟩ | ⟨heq, -⟩ := hsecond
    · refine .obj (by decide) fun key value value' hinner hother => ?_
      simp only [List.mem_cons, List.not_mem_nil, or_false,
        Prod.mk.injEq] at hinner hother
      rcases hinner with ⟨rfl, rfl⟩ | ⟨rfl, rfl⟩
      · obtain ⟨heq, -⟩ | ⟨-, rfl⟩ := hother
        · exact absurd heq (by decide)
        · exact .refl _
      · obtain ⟨-, rfl⟩ | ⟨heq, -⟩ := hother
        · exact .refl _
        · exact absurd heq (by decide)
    · exact absurd heq (by decide)

/-- The mapping of the pipeline that a call creates, read back with its keys in
another order. -/
theorem stored_mappings_compile_of_create :
    ∃ pool, (platform Sample.engineEnv).run
        { Sample.store with pipelines := [] }.boot
        [.start (.createPipeline ⟨"Contacts", none, 2, "contacts",
          twoFields⟩ Sample.operator), .run 0, .run 0] = some pool ∧
      pool.store.pipelines.map SyncPipeline.mappingJson = [.obj twoFields] ∧
      ∃ entries fields,
        extractMappingCandidates (.obj twoFieldsReordered) =
          .ok (.ok entries) ∧
        compileMapping Sample.runtime (.obj twoFieldsReordered) = .ok fields ∧
        fields.length = entries.length ∧
        CompilesForReaders Sample.engineEnv (.obj twoFieldsReordered)
          fields := by
  let steps : List Step := [.start (.createPipeline ⟨"Contacts", none, 2,
    "contacts", twoFields⟩ Sample.operator), .run 0, .run 0]
  have hisSome : ((platform Sample.engineEnv).run
      { Sample.store with pipelines := [] }.boot steps).isSome = true := by
    decide +kernel
  obtain ⟨pool, hrun⟩ := Option.isSome_iff_exists.mp hisSome
  have hmap : ((platform Sample.engineEnv).run
      { Sample.store with pipelines := [] }.boot steps).map
        (fun pool => pool.store.pipelines.map SyncPipeline.mappingJson) =
      some [.obj twoFields] := rfl
  rw [hrun] at hmap
  have hmappings : pool.store.pipelines.map SyncPipeline.mappingJson =
      [.obj twoFields] := Option.some.inj hmap
  obtain ⟨row, hrow, hmapping⟩ :
      ∃ row ∈ pool.store.pipelines, row.mappingJson = .obj twoFields :=
    List.mem_map.mp (by rw [hmappings]; exact List.mem_singleton_self _)
  exact ⟨pool, hrun, hmappings, stored_mappings_compile rfl (by simp)
    (System.reach_of_run hrun) hrow (hmapping ▸ reordered_twoFields)⟩

end SyncBridge
