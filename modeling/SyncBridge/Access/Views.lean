import SyncBridge.Access.ReadAccess
import SyncBridge.Integrity.References

/-!
# Lists and details

The lists, the pages of single rows, the job views and the dashboard check access
each in its own way.  In every store that the platform gets into they agree: a
row is on exactly one page of a list if the user can open it, and on none if not.
-/

namespace SyncBridge

open SyncBridge.Foundation

/-! ## Ties -/

section Ties

variable {ρ : Type} {column : ρ → Time} {rows : List ρ}
  {order order' : LatestFirst}

def DatesApart (column : ρ → Time) (rows : List ρ) : Prop :=
  ∀ first ∈ rows, ∀ second ∈ rows, column first = column second → first = second

/-- The two queries put the rows into the same order: both have the same way
with equal dates, or there are none. -/
def TiesAgree (order order' : LatestFirst) (column : ρ → Time)
    (rows : List ρ) : Prop :=
  order = order' ∨ DatesApart column rows

theorem DatesApart.apply_eq (h : DatesApart column rows) :
    order.apply column rows = order'.apply column rows := by
  refine List.Perm.eq_of_pairwise ?_ (order.sorted column rows)
    (order'.sorted column rows) (order.perm.trans order'.perm.symm)
  intro first second hfirst hsecond hle hge
  exact h first (order.perm.mem_iff.mp hfirst) second
    (order'.perm.mem_iff.mp hsecond) (Int.le_antisymm hge hle)

theorem TiesAgree.apply_eq (h : TiesAgree order order' column rows) :
    order.apply column rows = order'.apply column rows := by
  rcases h with rfl | hapart
  · rfl
  · exact hapart.apply_eq

theorem TiesAgree.filter {q : ρ → Bool}
    (h : TiesAgree order order' column rows) :
    TiesAgree order order' column (rows.filter q) :=
  h.imp_right fun hapart first hfirst second hsecond =>
    hapart first (List.mem_of_mem_filter hfirst) second
      (List.mem_of_mem_filter hsecond)

end Ties

/-! ## Pages -/

namespace PageQuery

variable {status ρ α : Type}

abbrev Limit := { limit : Nat // 1 ≤ limit ∧ limit ≤ 100 }

def pageAfter (limit : Limit) (wanted : Option status) (before : Nat) :
    PageQuery status :=
  ⟨some ⟨before + 1, Nat.succ_pos before⟩, some limit, wanted⟩

variable {limit : Limit} {wanted : Option status} {column : ρ → Time}
  {view : ρ → α} {rows : List ρ} {orders : Nat → LatestFirst}

theorem items_of_first_page {order : LatestFirst} :
    ((pageAfter limit wanted 0).paged order column view rows).items =
      ((order.apply column rows).take limit).map view := by
  have hfirst : (pageAfter limit wanted 0).pageOr = 1 := rfl
  have hlimit : (pageAfter limit wanted 0).limitOr = limit := rfl
  simp only [paged, hfirst, hlimit, Nat.sub_self, Nat.zero_mul, List.drop_zero]

theorem filter_of_none {page : Nat} [DecidableEq status] {statusOf : ρ → status} :
    rows.filter (fun row =>
      (pageAfter limit (none : Option status) page).statusFilter
        (statusOf row)) = rows :=
  List.filter_eq_self.mpr fun _ _ => rfl

theorem items_of_pages
    (hties : ∀ page, TiesAgree (orders page) (orders 0) column rows)
    (pages : Nat) :
    (List.range pages).flatMap (fun before =>
      ((pageAfter limit wanted before).paged (orders before) column view
        rows).items) =
          (((orders 0).apply column rows).take (pages * limit)).map view := by
  induction pages with
  | zero => simp
  | succ pages ih =>
      have hpage : ((pageAfter limit wanted pages).paged (orders pages) column
          view rows).items = ((((orders 0).apply column rows).drop
            (pages * limit)).take limit).map view := by
        simp [paged, pageAfter, pageOr, limitOr, (hties pages).apply_eq]
      rw [List.range_succ, List.flatMap_append, ih, List.flatMap_singleton, hpage,
        ← List.map_append, ← List.take_add, Nat.succ_mul]

/-- Enough pages show every row once, the latest first. -/
theorem items_of_all_pages
    (hties : ∀ page, TiesAgree (orders page) (orders 0) column rows)
    {pages : Nat} (h : rows.length ≤ pages * limit) :
    (List.range pages).flatMap (fun before =>
      ((pageAfter limit wanted before).paged (orders before) column view
        rows).items) = ((orders 0).apply column rows).map view := by
  rw [items_of_pages hties, List.take_of_length_le]
  rwa [(orders 0).perm.length_eq]

end PageQuery

/-! ## Opening a row -/

def AuthenticatedUser.sees (user : AuthenticatedUser) (owner : Option Id) : Bool :=
  isPrivileged user.role || owner = some user.sub

section Opening

variable {env : Env} {user : AuthenticatedUser} {store : Store} {id : Id}

theorem connector_findOne_eq :
    alone env (ConnectorsService.findOne id user) store =
      match Table.find Connector.id id store.connectors with
      | none => .error (.notFound "Connector not found")
      | some row =>
          if user.sees (some row.ownerId) then .ok row
          else .error
            (.forbidden "You do not have access to this connector") := by
  cases hfind : Table.find Connector.id id store.connectors with
  | none =>
      simp [alone, ConnectorsService.findOne, ConnectorsService.getById,
        Machine.eval, machine, exec, Prog.await, hfind, orNotFound]
  | some row =>
      by_cases hprivileged : isPrivileged user.role = true <;>
        by_cases howner : row.ownerId = user.sub <;>
        simp [alone, ConnectorsService.findOne, ConnectorsService.getById,
          ConnectorsService.assertCanAccess, Machine.eval, machine, exec,
          Prog.await, Prog.ofExcept, hfind, orNotFound, howner, hprivileged,
          AuthenticatedUser.sees]

theorem connector_opens {connector : Connector} :
    alone env (ConnectorsService.findOne id user) store = .ok connector ↔
      Table.find Connector.id id store.connectors = some connector ∧
        user.sees (some connector.ownerId) = true := by
  rw [connector_findOne_eq]
  cases Table.find Connector.id id store.connectors with
  | none => simp
  | some row => grind

theorem pipeline_findOne_eq :
    alone env (PipelinesService.findOne id user) store =
      match Table.find SyncPipeline.id id store.pipelines with
      | none => .error (.notFound "Pipeline not found")
      | some row =>
          if user.sees (some row.ownerId) then .ok row
          else .error
            (.forbidden "You do not have access to this pipeline") := by
  cases hfind : Table.find SyncPipeline.id id store.pipelines with
  | none =>
      simp [alone, PipelinesService.findOne, PipelinesService.getById,
        Machine.eval, machine, exec, Prog.await, hfind, orNotFound]
  | some row =>
      by_cases hprivileged : isPrivileged user.role = true <;>
        by_cases howner : row.ownerId = user.sub <;>
        simp [alone, PipelinesService.findOne, PipelinesService.getById,
          PipelinesService.assertCanAccess, Machine.eval, machine, exec,
          Prog.await, Prog.ofExcept, hfind, orNotFound, howner, hprivileged,
          AuthenticatedUser.sees]

theorem pipeline_opens {pipeline : SyncPipeline} :
    alone env (PipelinesService.findOne id user) store = .ok pipeline ↔
      Table.find SyncPipeline.id id store.pipelines = some pipeline ∧
        user.sees (some pipeline.ownerId) = true := by
  rw [pipeline_findOne_eq]
  cases Table.find SyncPipeline.id id store.pipelines with
  | none => simp
  | some row => grind

theorem run_opens {run : SyncRun} {pipeline : SyncPipeline} :
    SyncRunsService.findById id user store = .ok (run, pipeline) ↔
      Table.find SyncRun.id id store.syncRuns = some run ∧
        store.pipelineOf run = some pipeline ∧
          user.sees (some pipeline.ownerId) = true := by
  simp only [SyncRunsService.findById]
  cases Table.find SyncRun.id id store.syncRuns with
  | none => simp [foundOr, bind, Except.bind]
  | some row =>
      simp only [foundOr, bind, Except.bind]
      cases hpipeline : store.pipelineOf row with
      | none => grind
      | some found =>
          simp only [AuthenticatedUser.sees, pure, Except.pure]
          grind

theorem event_opens {event : WebhookEvent} :
    alone env (WebhooksService.getAccessibleEvent id user) store = .ok event ↔
      Table.find WebhookEvent.id id store.webhookEvents = some event ∧
        user.sees ((store.connectorOf event).map Connector.ownerId) = true := by
  cases hfind : Table.find WebhookEvent.id id store.webhookEvents with
  | none =>
      simp [alone, WebhooksService.getAccessibleEvent, Machine.eval, machine,
        exec, Prog.await, hfind, orNotFound]
  | some row =>
      have heq : alone env (WebhooksService.getAccessibleEvent id user) store =
          if !isPrivileged user.role &&
              (store.connectorOf row).map Connector.ownerId != some user.sub then
            .error (.forbidden "You do not have access to this webhook event")
          else .ok row := by
        simp only [alone, WebhooksService.getAccessibleEvent, Machine.eval,
          machine, exec, Prog.await, hfind, orNotFound, Prog.bind_eq,
          Prog.call_bind, Prog.ret_bind, Option.map_some, Store.connectorOf]
        split
        · rename_i hforbidden
          exact (if_pos hforbidden).symm
        · rename_i hallowed
          exact (if_neg hallowed).symm
      rw [heq, AuthenticatedUser.sees]
      grind

def Store.eventView (store : Store) (event : WebhookEvent) :
    WebhookEvent × Option SelectedOwnedConnector :=
  WebhooksService.serializeEvent event
    ((store.connectorOf event).map Connector.selectOwned)

theorem eventView_opens
    {item : WebhookEvent × Option SelectedOwnedConnector} :
    WebhooksService.getEventById env id user store = .ok item ↔
      ∃ event, Table.find WebhookEvent.id id store.webhookEvents = some event ∧
        user.sees ((store.connectorOf event).map Connector.ownerId) = true ∧
          item = store.eventView event := by
  simp only [WebhooksService.getEventById, bind_eq_ok, event_opens, pure,
    Except.pure, Except.ok.injEq, Store.eventView, eq_comm (a := item),
    and_assoc]

end Opening

/-! ## What the lists select -/

section Lists

variable {order : LatestFirst} {user : AuthenticatedUser} {store : Store}

theorem findAll_connectors_eq :
    ConnectorsService.findAll order user store =
      order.apply Connector.createdAt (store.connectors.filter fun connector =>
        user.sees (some connector.ownerId)) := by
  simp [ConnectorsService.findAll, AuthenticatedUser.sees]

theorem findAll_pipelines_eq :
    PipelinesService.findAll order user store =
      order.apply SyncPipeline.createdAt (store.pipelines.filter fun pipeline =>
        user.sees (some pipeline.ownerId)) := by
  simp [PipelinesService.findAll, AuthenticatedUser.sees]

def Store.seenRuns (store : Store) (user : AuthenticatedUser) : List SyncRun :=
  store.syncRuns.filter fun run =>
    user.sees ((store.pipelineOf run).map SyncPipeline.ownerId)

def Store.seenEvents (store : Store) (user : AuthenticatedUser) :
    List WebhookEvent :=
  store.webhookEvents.filter fun event =>
    user.sees ((store.connectorOf event).map Connector.ownerId)

def Store.runView (store : Store) (run : SyncRun) :
    SyncRun × Option SelectedOwnedPipeline :=
  (run, (store.pipelineOf run).map SyncPipeline.selectOwned)

theorem sees_contains (h : store.Intact) (hplain : isPrivileged user.role = false)
    (run : SyncRun) :
    (PipelinesService.ownedIds user store).contains run.pipelineId =
      user.sees ((store.pipelineOf run).map SyncPipeline.ownerId) := by
  rw [← ownsRun_contains, Bool.eq_iff_iff, ownsRun_iff h]
  simp [AuthenticatedUser.sees, hplain]

theorem seenRuns_of_plain (h : store.Intact)
    (hplain : isPrivileged user.role = false) :
    store.seenRuns user = store.syncRuns.filter fun run =>
      (PipelinesService.ownedIds user store).contains run.pipelineId := by
  simp only [Store.seenRuns, sees_contains h hplain]

theorem listAll_eq (h : store.Intact) (query : ListSyncRunsQueryDto) :
    SyncRunsService.listAll order query user store =
      query.paged order SyncRun.createdAt store.runView
        ((store.seenRuns user).filter fun run =>
          query.statusFilter run.status) := by
  cases hrole : isPrivileged user.role with
  | true =>
      have hall : store.seenRuns user = store.syncRuns := by
        simp [Store.seenRuns, AuthenticatedUser.sees, hrole]
      rw [SyncRunsService.listAll, if_pos hrole, hall]
      rfl
  | false =>
      rw [seenRuns_of_plain h hrole]
      simp only [SyncRunsService.listAll, hrole, Bool.false_eq_true, if_false,
        List.filter_filter]
      split
      · rename_i hnone
        have hempty := List.length_eq_zero_iff.mp hnone
        have hpaged : order.apply SyncRun.createdAt [] = [] :=
          List.perm_nil.mp order.perm
        simp [hempty, PageQuery.paged, hpaged]
      · rfl

theorem listEvents_eq (query : ListWebhookEventsQueryDto) :
    WebhooksService.listEvents order query user store =
      query.paged order WebhookEvent.receivedAt store.eventView
        ((store.seenEvents user).filter fun event =>
          query.statusFilter event.status) := by
  have hsees : ∀ event, (isPrivileged user.role ||
      (store.connectorOf event).any fun connector =>
        connector.ownerId = user.sub) =
      user.sees ((store.connectorOf event).map Connector.ownerId) := by
    intro event
    cases store.connectorOf event <;> simp [AuthenticatedUser.sees]
  simp only [WebhooksService.listEvents, Store.seenEvents, List.filter_filter,
    hsees]
  rfl

end Lists

/-! ## Lists in pages -/

/-- What one sees on the first pages of a list, each the answer of a query of its
own. -/
def leafThrough {status α : Type} (list : Nat → PageQuery status → Page α)
    (limit : PageQuery.Limit) (wanted : Option status) (pages : Nat) : List α :=
  (List.range pages).flatMap fun before =>
    (list before (.pageAfter limit wanted before)).items

/-- Leafing through all the pages one sees the items that open, each once and the
latest first, and the total is their number. -/
structure ShowsOnce {status α : Type} (list : Nat → PageQuery status → Page α)
    (id : α → Id) (date : α → Time) (statusOf : α → status)
    (limit : PageQuery.Limit) (wanted : Option status) (pages : Nat)
    (opens : α → Prop) : Prop where
  once : ((leafThrough list limit wanted pages).map id).Nodup
  latestFirst : (leafThrough list limit wanted pages).Pairwise
    fun earlier later => date later ≤ date earlier
  mem_iff : ∀ item, item ∈ leafThrough list limit wanted pages ↔
    opens item ∧ ∀ status ∈ wanted, statusOf item = status
  total : ∀ page, (list page (.pageAfter limit wanted page)).total =
    (leafThrough list limit wanted pages).length

theorem showsOnce_of_paged {status ρ α : Type} [DecidableEq status]
    (list : LatestFirst → PageQuery status → Page α) {id : α → Id}
    {date : α → Time} {statusOf : α → status} {opens : α → Prop} (view : ρ → α)
    (rows : List ρ)
    (hlist : ∀ order (query : PageQuery status), list order query =
      query.paged order (fun row => date (view row)) view
        (rows.filter fun row => query.statusFilter (statusOf (view row))))
    (hids : (rows.map fun row => id (view row)).Nodup)
    (hopens : ∀ item, opens item ↔ ∃ row ∈ rows, view row = item)
    {orders : Nat → LatestFirst}
    (hties : ∀ page, TiesAgree (orders page) (orders 0)
      (fun row => date (view row)) rows)
    {limit : PageQuery.Limit} {wanted : Option status} {pages : Nat}
    (henough : (list (orders 0) (.pageAfter limit wanted 0)).total ≤
      pages * limit) :
    ShowsOnce (fun page => list (orders page)) id date statusOf limit wanted
      pages opens := by
  have hselected : ∀ page, rows.filter (fun row =>
      (PageQuery.pageAfter limit wanted page).statusFilter (statusOf (view row))) =
        rows.filter fun row => wanted.all (statusOf (view row) = ·) :=
    fun _ => rfl
  simp only [hlist, hselected] at henough
  have hshown : leafThrough (fun page => list (orders page)) limit wanted
      pages = ((orders 0).apply (fun row => date (view row))
        (rows.filter fun row => wanted.all (statusOf (view row) = ·))).map
          view := by
    simp only [leafThrough, hlist, hselected]
    exact PageQuery.items_of_all_pages (fun page => (hties page).filter) henough
  refine ⟨?_, ?_, fun item => ?_, fun page => ?_⟩
  · rw [hshown, List.map_map]
    refine ((orders 0).perm.map _).nodup_iff.mpr ?_
    exact hids.sublist ((List.filter_sublist).map _)
  · rw [hshown, List.pairwise_map]
    exact (orders 0).sorted _ _
  · rw [hshown, List.mem_map, hopens]
    simp only [(orders 0).perm.mem_iff, List.mem_filter, Option.all_eq_true,
      decide_eq_true_eq]
    constructor
    · rintro ⟨row, ⟨hrow, hstatus⟩, rfl⟩
      exact ⟨⟨row, hrow, rfl⟩, hstatus⟩
    · rintro ⟨⟨row, hrow, rfl⟩, hstatus⟩
      exact ⟨row, ⟨hrow, hstatus⟩, rfl⟩
  · rw [hshown, List.length_map, (orders 0).perm.length_eq, hlist]
    rfl

/-! ## The views of a store -/

structure Summary.Matches (summary : Summary) (order : LatestFirst)
    (user : AuthenticatedUser) (store : Store) : Prop where
  connectors : ∀ order', summary.connectorsCount =
    (ConnectorsService.findAll order' user store).length
  pipelines : ∀ order', summary.pipelinesCount =
    (PipelinesService.findAll order' user store).length
  syncRuns : ∀ order' query, query.status = none → summary.syncRunsCount =
    (SyncRunsService.listAll order' query user store).total
  failedRuns : ∀ order' query, query.status = some .failed →
    summary.failedRunsCount =
      (SyncRunsService.listAll order' query user store).total
  webhookEvents : ∀ order' query, query.status = none →
    summary.webhookEventsCount =
      (WebhooksService.listEvents order' query user store).total
  latestRuns : ∀ order',
    TiesAgree order order' SyncRun.createdAt (store.seenRuns user) →
    summary.latestRuns.map (fun item => item.1.id) =
      (SyncRunsService.listAll order' (.pageAfter ⟨5, by decide⟩ none 0) user
        store).items.map fun item => item.1.id
  latestWebhookEvents : ∀ order',
    TiesAgree order order' WebhookEvent.receivedAt (store.seenEvents user) →
    summary.latestWebhookEvents.map (fun item => item.1.id) =
      (WebhooksService.listEvents order' (.pageAfter ⟨5, by decide⟩ none 0) user
        store).items.map fun item => item.1.id

structure Store.ViewsAgree (env : Env) (user : AuthenticatedUser)
    (store : Store) : Prop where
  connectors : ∀ order connector,
    connector ∈ ConnectorsService.findAll order user store ↔
      alone env (ConnectorsService.findOne connector.id user) store =
        .ok connector
  pipelines : ∀ order pipeline,
    pipeline ∈ PipelinesService.findAll order user store ↔
      alone env (PipelinesService.findOne pipeline.id user) store =
        .ok pipeline
  runs : ∀ (orders : Nat → LatestFirst) limit wanted pages,
    (SyncRunsService.listAll (orders 0) (.pageAfter limit wanted 0) user
      store).total ≤ pages * limit →
    (∀ page, TiesAgree (orders page) (orders 0) SyncRun.createdAt
      (store.seenRuns user)) →
    ShowsOnce (fun page => (SyncRunsService.listAll (orders page) · user store))
      (fun item => item.1.id) (fun item => item.1.createdAt)
      (fun item => item.1.status) limit wanted pages fun item => ∃ pipeline,
        SyncRunsService.findById item.1.id user store =
          .ok (item.1, pipeline) ∧ item.2 = some pipeline.selectOwned
  runsOfPipeline : ∀ order pipelineId pipeline,
    alone env (PipelinesService.findOne pipelineId user) store = .ok pipeline →
    ∃ items, SyncRunsService.listByPipeline order env pipelineId user store =
        .ok items ∧
      ∀ run view, (run, view) ∈ items ↔
        run.pipelineId = pipelineId ∧ view = some pipeline.select ∧
          SyncRunsService.findById run.id user store = .ok (run, pipeline)
  events : ∀ (orders : Nat → LatestFirst) limit wanted pages,
    (WebhooksService.listEvents (orders 0) (.pageAfter limit wanted 0) user
      store).total ≤ pages * limit →
    (∀ page, TiesAgree (orders page) (orders 0) WebhookEvent.receivedAt
      (store.seenEvents user)) →
    ShowsOnce
      (fun page => (WebhooksService.listEvents (orders page) · user store))
      (fun item => item.1.id) (fun item => item.1.receivedAt)
      (fun item => item.1.status) limit wanted pages fun item =>
        WebhooksService.getEventById env item.1.id user store = .ok item
  /-- A job opens with its run or its event. -/
  jobs : ∀ job ∈ store.backgroundJobs,
    JobStatusService.getById job.id user store = .ok (toPublicJob job) ↔
      match job.type with
      | .syncRun => ∃ found,
          SyncRunsService.findById job.entityId user store = .ok found
      | .webhookProcessing => ∃ found,
          WebhooksService.getEventById env job.entityId user store = .ok found
  summary : ∀ order,
    (DashboardService.getSummary order user store).Matches order user store

section Views

variable {env : Env} {order : LatestFirst} {orders : Nat → LatestFirst}
  {user : AuthenticatedUser} {store : Store}

theorem connectors_agree (h : store.Intact) (connector : Connector) :
    connector ∈ ConnectorsService.findAll order user store ↔
      alone env (ConnectorsService.findOne connector.id user) store =
        .ok connector := by
  rw [connector_opens, Table.find_eq_some_iff h.connectorIds,
    findAll_connectors_eq, order.perm.mem_iff, List.mem_filter]
  simp

theorem pipelines_agree (h : store.Intact) (pipeline : SyncPipeline) :
    pipeline ∈ PipelinesService.findAll order user store ↔
      alone env (PipelinesService.findOne pipeline.id user) store =
        .ok pipeline := by
  rw [pipeline_opens, Table.find_eq_some_iff h.pipelineIds,
    findAll_pipelines_eq, order.perm.mem_iff, List.mem_filter]
  simp

theorem exists_pipelineOf (h : store.Intact) {run : SyncRun}
    (hrun : run ∈ store.syncRuns) :
    ∃ pipeline, store.pipelineOf run = some pipeline := by
  obtain ⟨pipeline, hpipeline, hid⟩ := h.pipeline run hrun
  exact ⟨pipeline,
    (Table.find_eq_some_iff h.pipelineIds).mpr ⟨hpipeline, hid⟩⟩

theorem runs_agree (h : store.Intact) (limit : PageQuery.Limit)
    (wanted : Option SyncRunStatus) (pages : Nat)
    (henough : (SyncRunsService.listAll (orders 0) (.pageAfter limit wanted 0)
      user store).total ≤ pages * limit)
    (hties : ∀ page, TiesAgree (orders page) (orders 0) SyncRun.createdAt
      (store.seenRuns user)) :
    ShowsOnce (fun page => (SyncRunsService.listAll (orders page) · user store))
      (fun item => item.1.id) (fun item => item.1.createdAt)
      (fun item => item.1.status) limit wanted pages fun item => ∃ pipeline,
        SyncRunsService.findById item.1.id user store =
          .ok (item.1, pipeline) ∧ item.2 = some pipeline.selectOwned := by
  refine showsOnce_of_paged
    (fun order => (SyncRunsService.listAll order · user store)) store.runView
    (store.seenRuns user) (fun _ => listAll_eq h)
    (h.syncRunIds.sublist (List.filter_sublist.map _)) ?_ hties henough
  rintro ⟨run, view⟩
  simp only [run_opens, Table.find_eq_some_iff h.syncRunIds, Store.seenRuns,
    List.mem_filter, Store.runView, Prod.mk.injEq, and_true]
  constructor
  · rintro ⟨pipeline, ⟨hrun, hpipeline, hsees⟩, rfl⟩
    exact ⟨run, ⟨hrun, by rwa [hpipeline]⟩, rfl, by rw [hpipeline]; rfl⟩
  · rintro ⟨run, ⟨hrun, hsees⟩, rfl, rfl⟩
    obtain ⟨pipeline, hpipeline⟩ := exists_pipelineOf h hrun
    rw [hpipeline] at hsees
    exact ⟨pipeline, ⟨hrun, hpipeline, hsees⟩, by rw [hpipeline]; rfl⟩

theorem events_agree (h : store.Intact) (limit : PageQuery.Limit)
    (wanted : Option WebhookEventStatus) (pages : Nat)
    (henough : (WebhooksService.listEvents (orders 0) (.pageAfter limit wanted 0)
      user store).total ≤ pages * limit)
    (hties : ∀ page, TiesAgree (orders page) (orders 0) WebhookEvent.receivedAt
      (store.seenEvents user)) :
    ShowsOnce
      (fun page => (WebhooksService.listEvents (orders page) · user store))
      (fun item => item.1.id) (fun item => item.1.receivedAt)
      (fun item => item.1.status) limit wanted pages fun item =>
        WebhooksService.getEventById env item.1.id user store = .ok item := by
  refine showsOnce_of_paged
    (fun order => (WebhooksService.listEvents order · user store))
    store.eventView (store.seenEvents user) (fun _ => listEvents_eq)
    (h.webhookEventIds.sublist (List.filter_sublist.map _)) ?_ hties henough
  intro item
  simp only [eventView_opens, Table.find_eq_some_iff h.webhookEventIds,
    Store.seenEvents, List.mem_filter]
  constructor
  · rintro ⟨event, ⟨hevent, -⟩, hsees, rfl⟩
    exact ⟨event, ⟨hevent, hsees⟩, rfl⟩
  · rintro ⟨event, ⟨hevent, hsees⟩, rfl⟩
    exact ⟨event, ⟨hevent, rfl⟩, hsees, rfl⟩

theorem runsOfPipeline_agree (h : store.Intact) {pipelineId : Id}
    {pipeline : SyncPipeline}
    (hopens : alone env (PipelinesService.findOne pipelineId user) store =
      .ok pipeline) :
    ∃ items, SyncRunsService.listByPipeline order env pipelineId user store =
        .ok items ∧
      ∀ run view, (run, view) ∈ items ↔
        run.pipelineId = pipelineId ∧ view = some pipeline.select ∧
          SyncRunsService.findById run.id user store = .ok (run, pipeline) := by
  obtain ⟨hfind, hsees⟩ := pipeline_opens.mp hopens
  have hpipeline : ∀ run : SyncRun, run.pipelineId = pipelineId →
      store.pipelineOf run = some pipeline := by
    rintro run rfl
    exact hfind
  refine ⟨_, by rw [SyncRunsService.listByPipeline, hopens]; rfl,
    fun run view => ?_⟩
  simp only [List.mem_map, order.perm.mem_iff, List.mem_filter,
    decide_eq_true_eq, Prod.mk.injEq, run_opens,
    Table.find_eq_some_iff h.syncRunIds, and_true]
  constructor
  · rintro ⟨other, ⟨hrun, hid⟩, rfl, rfl⟩
    rw [hpipeline other hid]
    exact ⟨hid, rfl, hrun, rfl, hsees⟩
  · rintro ⟨hid, rfl, hrun, -, -⟩
    exact ⟨run, ⟨hrun, hid⟩, rfl, by rw [hpipeline run hid]; rfl⟩

/-! ### Jobs -/

theorem job_opens {id : Id} {shown : BackgroundJob} :
    JobStatusService.getById id user store = .ok shown ↔
      ∃ job, Table.find BackgroundJob.id id store.backgroundJobs = some job ∧
        user.sees (JobStatusService.entityOwner job.entityId store job.type) =
          true ∧ shown = toPublicJob job := by
  simp only [JobStatusService.getById, JobStatusService.assertCanAccessJob,
    AuthenticatedUser.sees]
  cases Table.find BackgroundJob.id id store.backgroundJobs with
  | none => simp [foundOr, bind, Except.bind]
  | some job =>
      simp only [foundOr, bind, Except.bind, pure, Except.pure]
      grind

theorem jobs_agree (h : store.Linked) {job : BackgroundJob}
    (hjob : job ∈ store.backgroundJobs) :
    JobStatusService.getById job.id user store = .ok (toPublicJob job) ↔
      match job.type with
      | .syncRun => ∃ found,
          SyncRunsService.findById job.entityId user store = .ok found
      | .webhookProcessing => ∃ found,
          WebhooksService.getEventById env job.entityId user store =
            .ok found := by
  have hintact := h.intact
  have hfind : Table.find BackgroundJob.id job.id store.backgroundJobs =
      some job :=
    (Table.find_eq_some_iff hintact.backgroundJobIds).mpr ⟨hjob, rfl⟩
  have hopens : JobStatusService.getById job.id user store =
      .ok (toPublicJob job) ↔ user.sees
        (JobStatusService.entityOwner job.entityId store job.type) = true := by
    rw [job_opens]
    constructor
    · rintro ⟨other, hother, hsees, -⟩
      obtain rfl := Option.some.inj (hfind.symm.trans hother)
      exact hsees
    · exact fun hsees => ⟨job, hfind, hsees, rfl⟩
  have hentity := (h.backgroundJobs job hjob).2
  rw [hopens]
  cases htype : job.type with
  | syncRun =>
      rw [htype] at hentity
      obtain ⟨pipelineId, triggerType, run, hrun, hid, -⟩ := hentity
      have hfound := (Table.find_eq_some_iff hintact.syncRunIds).mpr ⟨hrun, hid⟩
      obtain ⟨pipeline, hpipeline⟩ := exists_pipelineOf hintact hrun
      simp [JobStatusService.entityOwner, hfound, hpipeline, Prod.exists,
        run_opens]
  | webhookProcessing =>
      rw [htype] at hentity
      obtain ⟨event, hevent, hid⟩ := hentity
      have hfound :=
        (Table.find_eq_some_iff hintact.webhookEventIds).mpr ⟨hevent, hid⟩
      simp [JobStatusService.entityOwner, hfound, eventView_opens]

/-! ### The dashboard -/

theorem getSummary_eq (h : store.Intact) :
    DashboardService.getSummary order user store =
      DashboardService.summaryOf order store
        (store.connectors.filter fun connector =>
          user.sees (some connector.ownerId))
        (store.pipelines.filter fun pipeline =>
          user.sees (some pipeline.ownerId))
        (store.seenRuns user) (store.seenEvents user) := by
  cases hrole : isPrivileged user.role with
  | true =>
      simp [DashboardService.getSummary, Store.seenRuns, Store.seenEvents,
        AuthenticatedUser.sees, hrole]
  | false =>
      have hruns : store.syncRuns.filter (DashboardService.pipelineFilter
          (PipelinesService.ownedIds user store)) = store.seenRuns user := by
        rw [seenRuns_of_plain h hrole]
        refine List.filter_congr fun run _ => ?_
        rw [DashboardService.pipelineFilter]
        split
        · rfl
        · rename_i hnone
          have hempty := List.length_eq_zero_iff.mp (Nat.eq_zero_of_not_pos hnone)
          simp [idString_ne_none, hempty]
      have hevents : store.webhookEvents.filter (fun event =>
          (store.connectorOf event).any fun connector =>
            connector.ownerId = user.sub) = store.seenEvents user := by
        refine List.filter_congr fun event _ => ?_
        cases store.connectorOf event <;> simp [AuthenticatedUser.sees, hrole]
      simp only [DashboardService.getSummary, hrole, Bool.false_eq_true,
        if_false, hruns, hevents]
      simp [AuthenticatedUser.sees, hrole]

theorem summary_matches (h : store.Intact) :
    (DashboardService.getSummary order user store).Matches order user store := by
  rw [getSummary_eq h]
  refine ⟨fun order' => ?_, fun order' => ?_, fun order' query hnone => ?_,
    fun order' query hfailed => ?_, fun order' query hnone => ?_,
    fun order' hties => ?_, fun order' hties => ?_⟩
  · rw [findAll_connectors_eq, order'.perm.length_eq]
    rfl
  · rw [findAll_pipelines_eq, order'.perm.length_eq]
    rfl
  · simp [listAll_eq h, PageQuery.paged, PageQuery.statusFilter, hnone,
      DashboardService.summaryOf]
  · simp [listAll_eq h, PageQuery.paged, PageQuery.statusFilter, hfailed,
      DashboardService.summaryOf]
  · simp [listEvents_eq, PageQuery.paged, PageQuery.statusFilter, hnone,
      DashboardService.summaryOf]
  · rw [listAll_eq h, PageQuery.filter_of_none,
      PageQuery.items_of_first_page, ← hties.apply_eq]
    simp only [DashboardService.summaryOf, List.map_map]
    rfl
  · rw [listEvents_eq, PageQuery.filter_of_none,
      PageQuery.items_of_first_page, ← hties.apply_eq]
    simp only [DashboardService.summaryOf, List.map_map]
    rfl

end Views

/-- The lists, the single rows, the jobs and the dashboard show a user the same
rows in every store that the platform gets into. -/
theorem views_agree {env : Env} {init : Store} {pool : Platform}
    {ok : Platform → Step → Prop} (hinit : init.Linked)
    (h : (platform env).Reach ok init.boot pool) (user : AuthenticatedUser) :
    pool.store.ViewsAgree env user := by
  have hlinked := (references_sound.holds rfl hinit h).1
  have hintact := hlinked.intact
  exact {
    connectors := fun _ => connectors_agree hintact
    pipelines := fun _ => pipelines_agree hintact
    runs := fun _ => runs_agree hintact
    runsOfPipeline := fun _ _ _ => runsOfPipeline_agree hintact
    events := fun _ => events_agree hintact
    jobs := fun _ => jobs_agree hlinked
    summary := fun _ => summary_matches hintact }

/-! ## The owner of a delivered contact -/

theorem views_agree_of_delivery :
    ∃ pool, (platform (Sample.env .async)).run Sample.store.boot
        contactDelivered = some pool ∧
      (SyncRunsService.listAll .stable (.pageAfter ⟨20, by decide⟩ none 0)
        ⟨1, .user⟩ pool.store).total = 1 ∧
      pool.store.ViewsAgree (Sample.env .async) ⟨1, .user⟩ := by
  have hruns : ((platform (Sample.env .async)).run Sample.store.boot
      contactDelivered).any (fun pool => (SyncRunsService.listAll .stable
        (.pageAfter ⟨20, by decide⟩ none 0) ⟨1, .user⟩ pool.store).total = 1) =
          true := by
    decide +kernel
  obtain ⟨pool, hrun, hchecked⟩ := (Option.any_eq_true _ _).mp hruns
  exact ⟨pool, hrun, of_decide_eq_true hchecked,
    views_agree linked_sample (System.reach_of_run hrun) _⟩

end SyncBridge
