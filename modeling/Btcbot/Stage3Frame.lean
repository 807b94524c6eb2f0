import Btcbot.Stage3Execute

/-!
# What the parts of the service leave alone

The records the guarantees are about are the idempotency and action tables, the
registry and the log. Reads of the exchange and writes to the orders table touch
none of them; a refresh logs its failed reads and, when it ends, the registry.
-/
namespace Stage3Service

open PyData ExchangeErrors Stage3Store Stage3Intent Idempotency ExecutionWrapper Effects

structure Untouched (s t : Sys) : Prop where
  events : t.events = s.events
  registry : t.registry = s.registry
  idempotency : t.idempotency = s.idempotency
  actions : t.actions = s.actions

instance : IsPreorder Sys Untouched where
  refl _ := ⟨rfl, rfl, rfl, rfl⟩
  trans _ _ _ h g := ⟨g.events.trans h.events, g.registry.trans h.registry,
    g.idempotency.trans h.idempotency, g.actions.trans h.actions⟩

/-- Only the tick moves. -/
def Ticked (s t : Sys) : Prop := ∃ n, t = { s with tick := n }

instance : IsPreorder Sys Ticked where
  refl s := ⟨s.tick, rfl⟩
  trans := by
    rintro s _ _ ⟨m, rfl⟩ ⟨n, rfl⟩
    exact ⟨n, rfl⟩

theorem Ticked.untouched {s t : Sys} (h : Ticked s t) : Untouched s t := by
  obtain ⟨n, rfl⟩ := h
  exact ⟨rfl, rfl, rfl, rfl⟩

section Primitives

variable (env : Env)

theorem ticks_point : Keeps Ticked (point env) := by
  refine fun s => ?_
  simp only [point, ends_bind, ends_get, ends_set, ends_ite, ends_throw, ends_pure]
  split <;> exact ⟨s.tick + 1, rfl⟩

theorem ticks_sleep : Keeps Ticked (sleep env) := (ticks_point env).bind fun _ => Keeps.pure ()

theorem keeps_point : Keeps Untouched (point env) :=
  (ticks_point env).imp fun _ _ h => h.untouched

theorem keeps_ask {α : Type} (f : ℕ → α) : Keeps Untouched (ask env f) :=
  (keeps_point env).bind fun _ => Keeps.pure _

theorem keeps_now : Keeps Untouched (now env) := keeps_ask env env.now

theorem keeps_liftExcept {α : Type} {R : Sys → Sys → Prop} [IsPreorder Sys R]
    (r : Except Exc α) : Keeps R (liftExcept r) := by
  cases r with
  | ok a => exact Keeps.pure a
  | error exc => exact Keeps.throw exc

theorem liftExcept_triple {α : Type} {P : Sys → Prop} {Q : α → Sys → Prop}
    {E : Exc → Sys → Prop} {r : Except Exc α} (hok : ∀ a, r = .ok a → ∀ s, P s → Q a s)
    (herror : ∀ exc, r = .error exc → ∀ s, P s → E exc s) : Triple P (liftExcept r) Q E := by
  cases r with
  | ok a => exact Triple.pure (hok a rfl)
  | error exc => exact Triple.throw (herror exc rfl)

theorem keeps_call {α : Type} (f : ℕ → Except Exc α) : Keeps Untouched (call env f) :=
  (keeps_ask env f).bind fun r => keeps_liftExcept r

theorem keeps_attempt {α : Type} {R : Sys → Sys → Prop} [IsPreorder Sys R] {m : ExecM α}
    (h : Keeps R m) : Keeps R (attempt m) :=
  tryExcept_keeps (h.bind fun _ => Keeps.pure _) fun _ => Keeps.pure _

/-- An exception met on the way is handed on as a value, a crash ends the program. -/
theorem attempt_triple {α : Type} {P : Sys → Prop} {Q : α → Sys → Prop} {E : Exc → Sys → Prop}
    {m : ExecM α} (h : Triple P m Q E) :
    Triple P (attempt m)
      (fun r s => match r with
        | .ok a => Q a s
        | .error exc => exc ≠ .crash ∧ E exc s)
      (fun exc s => exc = .crash ∧ E .crash s) := by
  have hok : Triple P (do
      let a ← m
      pure (Except.ok a)) (fun r s => match r with
        | .ok a => Q a s
        | .error exc => exc ≠ .crash ∧ E exc s) E :=
    h.bind fun a => Triple.pure fun _ hs => hs
  exact tryExcept_triple hok (fun _ hs => ⟨rfl, hs⟩) fun exc hexc =>
    Triple.pure fun _ hs => ⟨hexc, hs⟩

theorem maintains_attempt {α : Type} {I : Sys → Prop} {m : ExecM α} (h : Maintains I m) :
    Maintains I (attempt m) := by
  refine (attempt_triple h).conseq (fun _ hs => hs) (fun r s hs => ?_) (fun _ _ he => he.2)
  cases r with
  | ok a => exact hs
  | error exc => exact hs.2

theorem keeps_record (answer : ExchangeAnswer) : Keeps Untouched (record answer) :=
  Keeps.modify fun _ => ⟨rfl, rfl, rfl, rfl⟩

theorem keeps_writeOrders (f : ℤ → List StoredOrder → List StoredOrder) :
    Keeps Untouched (writeOrders env f) :=
  (keeps_now env).bind fun _ => Keeps.modify fun _ => ⟨rfl, rfl, rfl, rfl⟩

theorem keeps_storeOrder (args : SaveOrderArgs) : Keeps Untouched (storeOrder env args) :=
  (keeps_now env).bind fun _ => Keeps.get.bind fun _ => (keeps_liftExcept _).bind fun _ =>
    Keeps.modify fun _ => ⟨rfl, rfl, rfl, rfl⟩

theorem keeps_storeOrderStatus (args : StatusArgs) :
    Keeps Untouched (storeOrderStatus env args) := keeps_writeOrders env _

end Primitives

section Reads

variable (env : Env) (config : Config)

theorem keeps_ensureLiveSideEffectsAllowed :
    Keeps Untouched (ensureLiveSideEffectsAllowed config) := by
  refine Keeps.get.bind fun s => ?_
  split
  · exact Keeps.pure ()
  · exact Keeps.throw _

theorem keeps_submissionGuardedByRuntimeState :
    Keeps Untouched (submissionGuardedByRuntimeState env config) := by
  refine (Keeps.pure _).ite ((keeps_ask env _).bind fun _ => (Keeps.pure _).ite ?_)
  refine (keeps_ask env _).bind fun _ => (Keeps.pure _).ite ?_
  exact (keeps_call env _).bind fun _ => Keeps.pure _

theorem keeps_findCanceled (order : Order) : Keeps Untouched (findCanceled env order) := by
  refine (keeps_call env _).bind fun _ => (Keeps.pure _).ite ?_
  refine (keeps_now env).bind fun _ => (keeps_now env).bind fun _ => ?_
  refine (keeps_call env _).bind fun _ => ?_
  split
  · exact Keeps.pure _
  · split <;> exact Keeps.pure _

theorem keeps_reconcileCancel (order : Order) : Keeps Untouched (reconcileCancel env order) := by
  refine (keeps_attempt (keeps_findCanceled env order)).bind fun r => ?_
  cases r <;> exact Keeps.pure _

theorem keeps_getCycleBalances (cycleId : Option String) :
    Keeps Untouched (getCycleBalances env cycleId) := by
  have hfetch : Keeps Untouched (balanceByAsset env) :=
    (keeps_call env _).bind fun _ => Keeps.pure _
  unfold getCycleBalances
  split
  · exact Keeps.pure _
  · refine Keeps.get.bind fun s => ?_
    split
    · exact Keeps.pure _
    · refine (keeps_attempt hfetch).bind fun r => ?_
      cases r with
      | error exc => exact Keeps.pure _
      | ok fetched =>
        exact (Keeps.modify fun _ => ⟨rfl, rfl, rfl, rfl⟩).bind fun _ => Keeps.pure _

theorem keeps_findSubmitted (p : Placement) : Keeps Untouched (findSubmitted env p) := by
  refine (keeps_call env _).bind fun _ => ?_
  dsimp only
  split
  · exact Keeps.pure _
  · refine (keeps_now env).bind fun _ => ?_
    split
    · exact Keeps.pure _
    · refine (keeps_call env _).bind fun _ => ?_
      split
      · exact Keeps.pure _
      · split <;> exact Keeps.pure _

theorem keeps_lookupStalePending (symbol clientOrderId : String) :
    Keeps Untouched (lookupStalePending env symbol clientOrderId) := by
  refine (keeps_call env _).bind fun _ => ?_
  split
  · exact Keeps.pure _
  · exact (keeps_now env).bind fun _ => (keeps_call env _).bind fun _ => Keeps.pure _

theorem keeps_sizeIntent (intent : OrderIntent) :
    Keeps Untouched (sizeIntent env config intent) := by
  refine (Keeps.pure _).ite (Keeps.bind ?_ fun _ => keeps_liftExcept _)
  exact (keeps_call env _).ite (Keeps.pure _)

theorem keeps_rulesForHash (symbol : String) : Keeps Untouched (rulesForHash env config symbol) := by
  refine Keeps.ite ((keeps_attempt (keeps_call env _)).bind fun r => ?_) (Keeps.pure _)
  cases r <;> exact Keeps.pure _

end Reads

section Refresh

variable (env : Env) (config : Config)

/-- Since `s` only failed reads were logged, and none when the refresh is clean. -/
structure ReadsSince (s : Sys) (clean : Prop) (t : Sys) : Prop where
  registry : t.registry = s.registry
  idempotency : t.idempotency = s.idempotency
  actions : t.actions = s.actions
  log : ∃ reads : List String, t.events = s.events ++ reads.map Event.readFailed ∧
    (clean → reads = [])

theorem ReadsSince.refl (s : Sys) (clean : Prop) : ReadsSince s clean s :=
  ⟨rfl, rfl, rfl, [], by simp, fun _ => rfl⟩

theorem ReadsSince.untouched {s t u : Sys} {clean : Prop} (h : ReadsSince s clean t)
    (g : Untouched t u) : ReadsSince s clean u := by
  obtain ⟨reads, hreads, hclean⟩ := h.log
  exact ⟨g.registry.trans h.registry, g.idempotency.trans h.idempotency,
    g.actions.trans h.actions, reads, g.events.trans hreads, hclean⟩

theorem ReadsSince.weaken {s t : Sys} {clean clean' : Prop} (h : ReadsSince s clean t)
    (hc : clean' → clean) : ReadsSince s clean' t := by
  obtain ⟨reads, hreads, hclean⟩ := h.log
  exact ⟨h.registry, h.idempotency, h.actions, reads, hreads, fun c => hclean (hc c)⟩

/-- The state of a refresh that has come as far as `acc`. -/
abbrev Refreshing (s : Sys) (acc : RefreshAcc) : Sys → Prop :=
  ReadsSince s (acc.reconcileFailed = false)

/-- A part of a refresh: what it returns is clean only if no read failed since `s`. -/
abbrev Refreshes (s : Sys) (acc : RefreshAcc) (m : ExecM RefreshAcc) : Prop :=
  Triple (Refreshing s acc) m (fun acc' => Refreshing s acc') (fun _ => ReadsSince s False)

variable {s : Sys} {acc : RefreshAcc}

theorem reads_untouched {α : Type} {m : ExecM α} {clean : Prop} (h : Keeps Untouched m) :
    Triple (ReadsSince s clean) m (fun _ => ReadsSince s clean) (fun _ => ReadsSince s False) :=
  (h.frame fun _ _ hst hs => ReadsSince.untouched hs hst).conseq (fun _ hs => hs)
    (fun _ _ hq => hq) (fun _ _ he => he.weaken False.elim)

theorem refreshes_untouched {α : Type} {m : ExecM α} (h : Keeps Untouched m) :
    Triple (Refreshing s acc) m (fun _ => Refreshing s acc) (fun _ => ReadsSince s False) :=
  reads_untouched h

theorem keeps_saveReconciledSnapshot (snapshot : OrderSnapshot) (raw : Option String) :
    Keeps Untouched (saveReconciledSnapshot env snapshot raw) := by
  refine Keeps.get.bind fun t => ?_
  split
  · exact Keeps.pure ()
  · exact (keeps_now env).bind fun _ => (keeps_now env).bind fun _ => keeps_storeOrder env _

theorem keeps_storeSnapshotStatus (orderId : String) (snapshot : OrderSnapshot)
    (raw : Option String) : Keeps Untouched (storeSnapshotStatus env orderId snapshot raw) :=
  keeps_storeOrderStatus env _

theorem keeps_markUnknownUnresolved (row : StoredOrder) (nowMs : ℤ) :
    Keeps Untouched (markUnknownUnresolved env config row nowMs) :=
  (keeps_writeOrders env _).bind fun _ => Keeps.modify fun _ => ⟨rfl, rfl, rfl, rfl⟩

/-- Counting does not change whether the refresh is clean. -/
theorem refreshes_pure {acc' : RefreshAcc} (h : acc'.reconcileFailed = acc.reconcileFailed) :
    Refreshes s acc (pure acc') :=
  Triple.pure fun _ hs => hs.weaken fun hc => h ▸ hc

theorem saveOpenSnapshot_refreshes (snapshot : OrderSnapshot) :
    Refreshes s acc (saveOpenSnapshot env acc snapshot) := by
  refine (refreshes_untouched Keeps.get).bind fun t => ?_
  refine (refreshes_untouched (keeps_saveReconciledSnapshot env snapshot _)).bind fun _ => ?_
  refine (refreshes_untouched (keeps_storeSnapshotStatus env _ snapshot _)).bind fun _ => ?_
  exact refreshes_pure rfl

theorem closeMissing_refreshes (ctx : RefreshContext) (row : StoredOrder) :
    Refreshes s acc (closeMissing env config ctx acc row) := by
  refine (refreshes_untouched (keeps_now env)).bind fun t => ?_
  cases row.status with
  | new =>
    refine Triple.ite (fun _ => ?_) fun _ => refreshes_pure rfl
    exact (refreshes_untouched (keeps_storeOrderStatus env _)).bind fun _ => refreshes_pure rfl
  | «open» | partial_ =>
    exact (refreshes_untouched (keeps_storeOrderStatus env _)).bind fun _ => refreshes_pure rfl
  | unknown =>
    exact (refreshes_untouched (keeps_markUnknownUnresolved env config row ctx.nowMs)).bind
      fun _ => refreshes_pure rfl
  | filled | canceled | rejected => exact refreshes_pure rfl

theorem settleMatched_refreshes (row : StoredOrder) (matched : OrderSnapshot) :
    Refreshes s acc (settleMatched env acc row matched) := by
  refine (refreshes_untouched (keeps_saveReconciledSnapshot env matched none)).bind fun _ => ?_
  refine (refreshes_untouched (keeps_storeSnapshotStatus env _ matched _)).bind fun _ => ?_
  refine Triple.ite (fun _ => ?_) fun _ => refreshes_pure rfl
  exact (refreshes_untouched (keeps_storeSnapshotStatus env _ matched _)).bind fun _ =>
    refreshes_pure rfl

/-- A failed read is logged and the refresh is no longer clean. -/
theorem readFailed_refreshes (symbol endpoint : String) (exc : Exc) :
    Triple (ReadsSince s False) (do
      emit (.readFailed symbol)
      pure (acc.failed endpoint exc))
      (fun acc' => Refreshing s acc') (fun _ => ReadsSince s False) := by
  have hemit : Triple (ReadsSince s False) (emit (.readFailed symbol))
      (fun _ => ReadsSince s False) (fun _ => ReadsSince s False) := by
    refine Triple.modify fun t ht => ?_
    obtain ⟨reads, hreads, -⟩ := ht.log
    exact ⟨ht.registry, ht.idempotency, ht.actions, reads ++ [symbol],
      by simp [hreads], fun h => h.elim⟩
  exact hemit.bind fun _ => Triple.pure fun t ht => ht.weaken fun h => by cases h

theorem loadRecent_refreshes (ctx : RefreshContext) (symbol : String) (due : List StoredOrder) :
    Refreshes s acc (loadRecent env config ctx symbol due acc) := by
  refine Triple.ite (fun _ => refreshes_pure rfl) fun _ => ?_
  refine (refreshes_untouched (keeps_attempt (keeps_call env _))).bind fun r => ?_
  cases r with
  | error exc =>
    exact (readFailed_refreshes symbol "all_orders" exc).conseq
      (fun _ hs => hs.weaken False.elim) (fun _ _ h => h) (fun _ _ h => h)
  | ok recent =>
    exact (refreshes_untouched (keeps_record _)).bind fun _ => refreshes_pure rfl

theorem reconcileLocal_refreshes (ctx : RefreshContext) (symbol : String)
    (snapshots : List OrderSnapshot) (due : List StoredOrder) (row : StoredOrder) :
    Refreshes s acc (reconcileLocal env config ctx symbol snapshots due acc row) := by
  refine Triple.ite (fun _ => refreshes_pure rfl) fun _ => ?_
  split
  next openMatch _ =>
    refine Triple.ite (fun _ => ?_) fun _ => refreshes_pure rfl
    exact (refreshes_untouched (keeps_storeSnapshotStatus env _ openMatch _)).bind fun _ =>
      refreshes_pure rfl
  · refine Triple.ite (fun _ => refreshes_pure rfl) fun _ => ?_
    refine (loadRecent_refreshes env config ctx symbol due).bind fun acc' => ?_
    split
    · exact refreshes_pure rfl
    next recent _ =>
      split
      · exact closeMissing_refreshes env config ctx row
      next matched _ => exact settleMatched_refreshes env row matched

theorem refreshSymbol_refreshes (ctx : RefreshContext) (symbol : String) :
    Refreshes s acc (refreshSymbol env config ctx acc symbol) := by
  refine (refreshes_untouched Keeps.get).bind fun t => ?_
  refine Triple.ite (fun _ => refreshes_pure rfl) fun _ => ?_
  refine (refreshes_untouched (Keeps.modify ?_)).bind fun _ => ?_
  · exact fun _ => ⟨rfl, rfl, rfl, rfl⟩
  refine (refreshes_untouched (keeps_attempt (keeps_call env _))).bind fun r => ?_
  cases r with
  | error exc =>
    refine (refreshes_untouched (keeps_record _)).bind fun _ => ?_
    exact (readFailed_refreshes symbol "open_orders" exc).conseq
      (fun _ hs => hs.weaken False.elim) (fun _ _ h => h) (fun _ _ h => h)
  | ok items =>
    refine (refreshes_untouched (keeps_record _)).bind fun _ => ?_
    refine Triple.bind (Q := fun acc' => Refreshing s acc') ?_ fun acc' => ?_
    · refine (Triple.foldlM (I := fun acc' => Refreshing s acc') _
        (fun snapshot _ acc' => saveOpenSnapshot_refreshes env snapshot) _).conseq ?_ ?_ ?_
      · exact fun _ hs => hs
      · exact fun _ _ h => h
      · exact fun _ _ h => h
    · exact Triple.foldlM (I := fun acc' => Refreshing s acc') _
        (fun row _ acc' => reconcileLocal_refreshes env config ctx symbol _ _ row) _

/-- Where a refresh, once started, can be when it ends: stopped short of the registry, or after
its last write to it. It empties the registry only when no read failed. -/
structure Refreshed (s t : Sys) : Prop where
  idempotency : t.idempotency = s.idempotency
  actions : t.actions = s.actions
  log : ∃ reads : List String,
    (t.registry = s.registry ∧ t.events = s.events ++ reads.map Event.readFailed) ∨
    (t.events = s.events ++ reads.map Event.readFailed ++ [.registry t.registry.keys] ∧
      (t.registry.keys = [] → s.registry.keys = [] ∨ reads = []))

theorem ReadsSince.refreshed {t : Sys} {clean : Prop} (h : ReadsSince s clean t) :
    Refreshed s t := by
  obtain ⟨reads, hreads, -⟩ := h.log
  exact ⟨h.idempotency, h.actions, reads, .inl ⟨h.registry, hreads⟩⟩

theorem keys_nil_iff {V : Type} (d : Dict V) : d.keys = [] ↔ d.isEmpty = true := by
  rw [← Std.ExtTreeMap.isEmpty_keys, List.isEmpty_iff]

/-- A sync that may not clear keeps every id; any sync takes up every record. -/
theorem syncSnapshot_nil {registry : Dict UnknownOrderRecord} {records : List UnknownOrderRecord}
    {allowClear : Bool} (h : (syncSnapshot registry records allowClear).keys = []) :
    records = [] ∧ (allowClear = false → registry.keys = []) := by
  cases records with
  | nil =>
    refine ⟨rfl, fun hc => ?_⟩
    simpa [syncSnapshot, hc] using h
  | cons record records =>
    have hfold (l : List UnknownOrderRecord) (d : Dict UnknownOrderRecord)
        (hd : d.isEmpty = false) :
        (l.foldl (fun d record => d.insert record.orderId record) d).isEmpty = false := by
      induction l generalizing d with
      | nil => exact hd
      | cons _ _ ih => exact ih _ (by simp)
    rw [keys_nil_iff, syncSnapshot, List.foldl_cons, hfold _ _ (by simp)] at h
    cases h

theorem closeRefresh_refreshed (ctx : RefreshContext) :
    Triple (Refreshing s acc) (closeRefresh ctx acc) (fun _ => Refreshed s)
      (fun _ => Refreshed s) := by
  refine ((refreshes_untouched (Keeps.modify ?_)).conseq (fun _ hs => hs) (fun _ _ hq => hq)
    (fun _ _ he => he.refreshed)).bind fun _ => ?_
  · exact fun _ => ⟨rfl, rfl, rfl, rfl⟩
  refine Triple.bind (Q := fun _ => Refreshed s) (Triple.modify fun t ht => ?_) fun _ =>
    Triple.pure fun _ h => h
  obtain ⟨reads, hreads, hclean⟩ := ht.log
  refine ⟨ht.idempotency, ht.actions, reads, .inr ⟨by simp [hreads], fun hnil => ?_⟩⟩
  obtain ⟨-, hkeep⟩ := syncSnapshot_nil hnil
  cases hfailed : acc.reconcileFailed with
  | false => exact .inr (hclean hfailed)
  | true => exact .inl (by rw [← ht.registry]; exact hkeep (by simp [hfailed]))

theorem refreshSymbols_keeps (symbols : List String) (skipNonEssential : Bool) :
    Keeps Refreshed (refreshSymbols env config symbols skipNonEssential) := by
  intro s
  suffices h : Triple (ReadsSince s True) (refreshSymbols env config symbols skipNonEssential)
      (fun _ => Refreshed s) (fun _ => Refreshed s) from h s (ReadsSince.refl s True)
  have untouched {α : Type} {m : ExecM α} (h : Keeps Untouched m) :
      Triple (ReadsSince s True) m (fun _ => ReadsSince s True) (fun _ => Refreshed s) :=
    (reads_untouched h).conseq (fun _ hs => hs) (fun _ _ hq => hq) (fun _ _ he => he.refreshed)
  refine (untouched Keeps.get).bind fun _ => (untouched (keeps_now env)).bind fun t => ?_
  refine (untouched (keeps_ask env _)).bind fun nowMono => (untouched Keeps.get).bind fun u => ?_
  refine Triple.ite (fun _ => ?_) fun _ => ?_
  · refine (untouched (Keeps.modify ?_)).bind fun _ => Triple.pure fun _ h => h.refreshed
    exact fun _ => ⟨rfl, rfl, rfl, rfl⟩
  · refine Triple.bind (Q := fun acc => Refreshing s acc) ?_ fun acc =>
      closeRefresh_refreshed _
    exact (Triple.foldlM (I := fun acc => Refreshing s acc) symbols
      (fun symbol _ acc => refreshSymbol_refreshes env config _ symbol) _).conseq
      (fun _ hs => hs.weaken fun _ => trivial) (fun _ _ h => h) (fun _ _ h => h.refreshed)

end Refresh

end Stage3Service
