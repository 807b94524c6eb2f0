import Btcbot.PyData

/-!
# The stage 4 tables

Orders by client id, and replace transactions. A replace transaction moves forward
through ranked states; from a blocked state, which has no rank, every state is reached.
-/
namespace Stage4Store

open PyData

inductive OrderStatus where
  | «open»
  | submitted
  | cancelRequested
  | canceled
  | filled
  | partialFill
  | rejected
  | unknown
  | error
  | unknownClosed
  deriving DecidableEq, Repr

/-- A status as it is stored. -/
def statusText : OrderStatus → String
  | .open => "open"
  | .submitted => "submitted"
  | .cancelRequested => "cancel_requested"
  | .canceled => "canceled"
  | .filled => "filled"
  | .partialFill => "partial"
  | .rejected => "rejected"
  | .unknown => "unknown"
  | .error => "error"
  | .unknownClosed => "unknown_closed"

inductive OrderMode where
  | dryRun
  | live
  | external
  deriving DecidableEq, Repr

structure OrderRow where
  id : ℕ
  symbol : String
  clientOrderId : Option String
  exchangeClientId : Option String
  exchangeOrderId : Option String
  side : String
  price : ℚ
  qty : ℚ
  status : OrderStatus
  mode : OrderMode
  lastError : Option String
  lastErrorCode : Option ℤ
  createdAt : ℤ
  updatedAt : ℤ
  deriving DecidableEq, Repr

section Orders

variable (orders : List OrderRow)

def getStage4OrderByClientId (clientOrderId : String) : Option OrderRow :=
  orders.find? (·.clientOrderId = some clientOrderId)

def OrderStatus.terminal : OrderStatus → Bool
  | .filled | .canceled | .rejected | .unknownClosed => true
  | _ => false

def isOrderTerminal (clientOrderId : String) : Bool :=
  (getStage4OrderByClientId orders clientOrderId).any (·.status.terminal)

/-- The id after the last one. -/
def nextId : ℕ := (orders.map OrderRow.id).foldl max 0 + 1

/-- The row of a client id is updated, or one is inserted. -/
def writeOrder (clientOrderId : String) (update : OrderRow → OrderRow) (insert : OrderRow) :
    List OrderRow :=
  if (getStage4OrderByClientId orders clientOrderId).isSome then
    orders.map fun row => if row.clientOrderId = some clientOrderId then update row else row
  else orders ++ [insert]

def updateOrder (clientOrderId : String) (update : OrderRow → OrderRow) : List OrderRow :=
  orders.map fun row => if row.clientOrderId = some clientOrderId then update row else row

structure Stage4SubmitDedupeStatus where
  shouldDedupe : Bool
  dedupeKey : String
  reason : Option String
  ageSeconds : Option ℤ
  relatedOrderId : Option ℕ
  relatedStatus : Option OrderStatus
  deriving DecidableEq, Repr

/-- The row updated last, the first of those that tie. -/
def latest : List OrderRow → Option OrderRow
  | [] => none
  | row :: rows =>
    match latest rows with
    | none => some row
    | some other => if other.updatedAt ≤ row.updatedAt then some row else some other

def dedupeReason (status : OrderStatus) (ageSeconds : ℤ) : Option String :=
  match status with
  | .open => some "open_order_exists"
  | .submitted | .cancelRequested => some "in_flight"
  | .filled => if ageSeconds < 5 then some "recent_success" else none
  | _ => none

def relatedOrders (internalId exchangeId : String) : List OrderRow :=
  orders.filter fun row =>
    row.clientOrderId = some internalId ∨ row.exchangeClientId = some exchangeId

def stage4SubmitDedupeStatus (now : ℤ) (internalId exchangeId : String) :
    Stage4SubmitDedupeStatus :=
  match latest (relatedOrders orders internalId exchangeId) with
  | none => ⟨false, exchangeId, none, none, none, none⟩
  | some row =>
    let ageSeconds := (now - row.createdAt) / 1000000
    let reason := dedupeReason row.status ageSeconds
    ⟨reason.isSome, exchangeId, reason, some ageSeconds, some row.id, some row.status⟩

/-- What an order is recorded with. -/
structure Recorded where
  symbol : String
  clientOrderId : String
  side : String
  price : ℚ
  qty : ℚ
  mode : OrderMode
  status : OrderStatus

def recordStage4OrderSubmitted (now : ℤ) (order : Recorded) (exchangeClientId : Option String)
    (exchangeOrderId : String) : List OrderRow :=
  writeOrder orders order.clientOrderId
    (fun row =>
      { row with
        exchangeClientId := row.exchangeClientId.or exchangeClientId
        exchangeOrderId := some exchangeOrderId
        status := order.status
        mode := order.mode
        updatedAt := now })
    { id := nextId orders
      symbol := normalizeSymbol order.symbol
      clientOrderId := some order.clientOrderId
      exchangeClientId := exchangeClientId
      exchangeOrderId := some exchangeOrderId
      side := order.side
      price := order.price
      qty := order.qty
      status := order.status
      mode := order.mode
      lastError := none
      lastErrorCode := none
      createdAt := now
      updatedAt := now }

def recordStage4OrderSimulatedSubmit (now : ℤ) (order : Recorded) : List OrderRow :=
  recordStage4OrderSubmitted orders now { order with mode := .dryRun, status := .open }
    (some order.clientOrderId) ("sim-" ++ order.clientOrderId)

def recordStage4OrderCancelRequested (now : ℤ) (clientOrderId : String) : List OrderRow :=
  updateOrder orders clientOrderId fun row =>
    if row.status = .open ∨ row.status = .submitted then
      { row with status := .cancelRequested, updatedAt := now }
    else row

def recordStage4OrderCanceled (now : ℤ) (clientOrderId : String) : List OrderRow :=
  updateOrder orders clientOrderId fun row => { row with status := .canceled, updatedAt := now }

def recordStage4OrderError (now : ℤ) (order : Recorded) (reason : String)
    (errorCode : Option ℤ) : List OrderRow :=
  writeOrder orders order.clientOrderId
    (fun row =>
      { row with
        symbol := normalizeSymbol order.symbol
        side := order.side
        price := order.price
        qty := order.qty
        status := order.status
        mode := order.mode
        lastError := some reason
        lastErrorCode := errorCode
        updatedAt := now })
    { id := nextId orders
      symbol := normalizeSymbol order.symbol
      clientOrderId := some order.clientOrderId
      exchangeClientId := none
      exchangeOrderId := none
      side := order.side
      price := order.price
      qty := order.qty
      status := order.status
      mode := order.mode
      lastError := some reason
      lastErrorCode := errorCode
      createdAt := now
      updatedAt := now }

def recordStage4OrderRejected (now : ℤ) (order : Recorded) (reason : String)
    (errorCode : Option ℤ) : List OrderRow :=
  recordStage4OrderError orders now { order with status := .rejected } reason errorCode

end Orders

section OrderRows

variable {orders : List OrderRow}

theorem getStage4OrderByClientId_some {clientOrderId : String} {row : OrderRow}
    (h : getStage4OrderByClientId orders clientOrderId = some row) :
    row ∈ orders ∧ row.clientOrderId = some clientOrderId :=
  ⟨List.mem_of_find?_eq_some h, by simpa using List.find?_some h⟩

/-- An update that keeps the client ids is seen through it. -/
theorem get_map (update : OrderRow → OrderRow)
    (hid : ∀ row, (update row).clientOrderId = row.clientOrderId) (clientOrderId : String) :
    getStage4OrderByClientId (orders.map update) clientOrderId =
      (getStage4OrderByClientId orders clientOrderId).map update := by
  unfold getStage4OrderByClientId
  rw [List.find?_map]
  simp only [Function.comp_def, hid]

/-- An update is seen of the row of its client id. -/
theorem get_updated (clientOrderId : String) {update : OrderRow → OrderRow}
    (hid : ∀ row, (update row).clientOrderId = row.clientOrderId) :
    getStage4OrderByClientId (updateOrder orders clientOrderId update) clientOrderId =
      (getStage4OrderByClientId orders clientOrderId).map update := by
  unfold updateOrder
  rw [get_map]
  · cases hrow : getStage4OrderByClientId orders clientOrderId with
    | none => rfl
    | some row => simp [(getStage4OrderByClientId_some hrow).2]
  · intro row
    split
    · exact hid row
    · rfl

/-- A write updates the row of a client id, or inserts one. -/
theorem get_written (clientOrderId : String) {update : OrderRow → OrderRow} {insert : OrderRow}
    (hid : ∀ row, (update row).clientOrderId = row.clientOrderId)
    (hnew : insert.clientOrderId = some clientOrderId) :
    getStage4OrderByClientId (writeOrder orders clientOrderId update insert) clientOrderId =
      some (((getStage4OrderByClientId orders clientOrderId).map update).getD insert) := by
  unfold writeOrder
  cases hrow : getStage4OrderByClientId orders clientOrderId with
  | some row =>
    have hupdated := @get_updated orders clientOrderId update hid
    rw [hrow] at hupdated
    rw [if_pos (by simp)]
    exact hupdated
  | none =>
    rw [if_neg (by simp)]
    unfold getStage4OrderByClientId at hrow ⊢
    rw [List.find?_append, hrow]
    simp [hnew]

/-- The status of the row of a client id. -/
def storedStatus (orders : List OrderRow) (clientOrderId : String) : Option OrderStatus :=
  (getStage4OrderByClientId orders clientOrderId).map OrderRow.status

theorem storedStatus_written (clientOrderId : String) {update : OrderRow → OrderRow}
    {insert : OrderRow} {status : OrderStatus}
    (hid : ∀ row, (update row).clientOrderId = row.clientOrderId)
    (hstatus : ∀ row, (update row).status = status)
    (hnew : insert.clientOrderId = some clientOrderId) (hnewStatus : insert.status = status) :
    storedStatus (writeOrder orders clientOrderId update insert) clientOrderId = some status := by
  rw [storedStatus, get_written clientOrderId hid hnew]
  cases getStage4OrderByClientId orders clientOrderId with
  | some row => exact congrArg some (hstatus row)
  | none => exact congrArg some hnewStatus

/-- Only the row of a client id was written. -/
def OnlyRow (clientOrderId : String) (before after : List OrderRow) : Prop :=
  ∀ other, other ≠ clientOrderId →
    getStage4OrderByClientId after other = getStage4OrderByClientId before other

theorem onlyRow_updateOrder (clientOrderId : String) {update : OrderRow → OrderRow}
    (hid : ∀ row, (update row).clientOrderId = row.clientOrderId) :
    OnlyRow clientOrderId orders (updateOrder orders clientOrderId update) := by
  intro other hother
  unfold updateOrder
  rw [get_map]
  · cases hrow : getStage4OrderByClientId orders other with
    | none => rfl
    | some row =>
      have hkey := (getStage4OrderByClientId_some hrow).2
      simp [hkey, hother]
  · intro row
    split
    · exact hid row
    · rfl

theorem onlyRow_writeOrder (clientOrderId : String) {update : OrderRow → OrderRow}
    {insert : OrderRow} (hid : ∀ row, (update row).clientOrderId = row.clientOrderId)
    (hnew : insert.clientOrderId = some clientOrderId) :
    OnlyRow clientOrderId orders (writeOrder orders clientOrderId update insert) := by
  unfold writeOrder
  split
  · exact onlyRow_updateOrder clientOrderId hid
  · intro other hother
    unfold getStage4OrderByClientId
    rw [List.find?_append]
    simp [hnew, hother.symm]

theorem onlyRow_recordSubmitted (now : ℤ) (order : Recorded) (exchangeClientId : Option String)
    (exchangeOrderId : String) :
    OnlyRow order.clientOrderId orders
      (recordStage4OrderSubmitted orders now order exchangeClientId exchangeOrderId) :=
  onlyRow_writeOrder order.clientOrderId (fun _ => rfl) rfl

theorem onlyRow_recordError (now : ℤ) (order : Recorded) (reason : String)
    (errorCode : Option ℤ) :
    OnlyRow order.clientOrderId orders
      (recordStage4OrderError orders now order reason errorCode) :=
  onlyRow_writeOrder order.clientOrderId (fun _ => rfl) rfl

theorem onlyRow_recordCancelRequested (now : ℤ) (clientOrderId : String) :
    OnlyRow clientOrderId orders (recordStage4OrderCancelRequested orders now clientOrderId) := by
  refine onlyRow_updateOrder clientOrderId fun row => ?_
  split <;> rfl

theorem onlyRow_recordCanceled (now : ℤ) (clientOrderId : String) :
    OnlyRow clientOrderId orders (recordStage4OrderCanceled orders now clientOrderId) :=
  onlyRow_updateOrder clientOrderId fun _ => rfl

theorem storedStatus_recordSubmitted (now : ℤ) (order : Recorded)
    (exchangeClientId : Option String) (exchangeOrderId : String) :
    storedStatus (recordStage4OrderSubmitted orders now order exchangeClientId exchangeOrderId)
      order.clientOrderId = some order.status :=
  storedStatus_written order.clientOrderId (fun _ => rfl) (fun _ => rfl) rfl rfl

theorem storedStatus_recordError (now : ℤ) (order : Recorded) (reason : String)
    (errorCode : Option ℤ) :
    storedStatus (recordStage4OrderError orders now order reason errorCode) order.clientOrderId =
      some order.status :=
  storedStatus_written order.clientOrderId (fun _ => rfl) (fun _ => rfl) rfl rfl

/-- The status of an order whose cancel is requested. -/
def requestedStatus (status : OrderStatus) : OrderStatus :=
  if status = .open ∨ status = .submitted then .cancelRequested else status

theorem storedStatus_recordCancelRequested (now : ℤ) (clientOrderId : String) :
    storedStatus (recordStage4OrderCancelRequested orders now clientOrderId) clientOrderId =
      (storedStatus orders clientOrderId).map requestedStatus := by
  rw [storedStatus, recordStage4OrderCancelRequested, get_updated]
  · simp only [storedStatus, Option.map_map]
    congr 1
    funext row
    simp only [Function.comp_apply, requestedStatus]
    split <;> rfl
  · intro row
    split <;> rfl

theorem storedStatus_recordCanceled (now : ℤ) (clientOrderId : String) :
    storedStatus (recordStage4OrderCanceled orders now clientOrderId) clientOrderId =
      (storedStatus orders clientOrderId).map fun _ => .canceled := by
  rw [storedStatus, recordStage4OrderCanceled, get_updated]
  · simp only [storedStatus, Option.map_map]
    rfl
  · exact fun _ => rfl

end OrderRows

inductive ReplaceTxState where
  | init
  | cancelSent
  | cancelConfirmed
  | submitSent
  | submitConfirmed
  | blockedUnknown
  | blockedReconcile
  | failed
  deriving DecidableEq, Repr

/-- The rank of a state, none for a side state. -/
def ReplaceTxState.order : ReplaceTxState → ℤ
  | .init => 0
  | .cancelSent => 1
  | .cancelConfirmed => 2
  | .submitSent => 3
  | .submitConfirmed => 4
  | _ => -1

def ReplaceTxState.terminal : ReplaceTxState → Bool
  | .submitConfirmed | .failed => true
  | _ => false

def ReplaceTxState.retryableBlocked : ReplaceTxState → Bool
  | .blockedUnknown | .blockedReconcile => true
  | _ => false

def isReplaceTxForwardTransition (current new : ReplaceTxState) : Bool :=
  if current.terminal then new = current
  else if new.retryableBlocked then true
  else if new = .failed then true
  else current.order ≤ new.order

structure ReplaceTx where
  symbol : String
  side : String
  oldClientOrderIds : List String
  newClientOrderId : String
  state : ReplaceTxState
  lastError : Option String
  createdAt : ℤ
  lastUpdatedAt : ℤ

abbrev ReplaceTxs := Dict ReplaceTx

/-- The state a transaction goes to: one it may not go to leaves it where it is. -/
def forwarded (current new : ReplaceTxState) : ReplaceTxState :=
  if isReplaceTxForwardTransition current new then new else current

def sameIds (a b : List String) : Bool := a.all (· ∈ b) && b.all (· ∈ a)

def sameReplaceMetadata (tx : ReplaceTx) (symbol side : String) (oldIds : List String)
    (newId : String) : Bool :=
  normalizeSymbol tx.symbol = normalizeSymbol symbol && tx.side = side &&
    sameIds tx.oldClientOrderIds oldIds && tx.newClientOrderId = newId

def upsertReplaceTx (txs : ReplaceTxs) (now : ℤ) (replaceTxId symbol side : String)
    (oldIds : List String) (newId : String) (state : ReplaceTxState)
    (lastError : Option String) : ReplaceTxs :=
  match txs[replaceTxId]? with
  | none =>
    txs.insert replaceTxId
      ⟨normalizeSymbol symbol, side, oldIds, newId, state, lastError, now, now⟩
  | some tx =>
    if ¬ sameReplaceMetadata tx symbol side oldIds newId then
      txs.insert replaceTxId
        { tx with lastError := some "replace_tx_metadata_mismatch", lastUpdatedAt := now }
    else
      let next := forwarded tx.state state
      txs.insert replaceTxId
        { tx with
          symbol := normalizeSymbol symbol
          side := side
          oldClientOrderIds := oldIds
          newClientOrderId := newId
          state := next
          lastError := if next ≠ tx.state ∧ lastError.isSome then lastError else tx.lastError
          lastUpdatedAt := now }

def updateReplaceTxState (txs : ReplaceTxs) (now : ℤ) (replaceTxId : String)
    (state : ReplaceTxState) (lastError : Option String) : ReplaceTxs :=
  match txs[replaceTxId]? with
  | none => txs
  | some tx =>
    txs.insert replaceTxId
      { tx with
        state := forwarded tx.state state
        lastError := lastError.or tx.lastError
        lastUpdatedAt := now }

section Replace

/-- No transition leaves a terminal state. -/
theorem forwarded_terminal {current : ReplaceTxState} (h : current.terminal = true)
    (new : ReplaceTxState) : forwarded current new = current := by
  unfold forwarded isReplaceTxForwardTransition
  simp only [h, if_true, decide_eq_true_eq]
  split <;> simp_all

/-- The last state is reached from every state but a terminal one, and so is failure. -/
theorem forwarded_last {current : ReplaceTxState} (h : current.terminal = false)
    {new : ReplaceTxState} (hnew : new.terminal = true) : forwarded current new = new := by
  have hcases : new = .submitConfirmed ∨ new = .failed := by
    cases new <;> simp [ReplaceTxState.terminal] at hnew ⊢
  rcases hcases with rfl | rfl <;> cases current <;> first | rfl | exact absurd h (by decide)

/-- Terminal transactions keep their state. -/
def Settles (before after : ReplaceTxs) : Prop :=
  ∀ (replaceTxId : String) (tx : ReplaceTx), before[replaceTxId]? = some tx →
    tx.state.terminal = true →
    ∃ tx', after[replaceTxId]? = some tx' ∧ tx'.state = tx.state

theorem Settles.refl (txs : ReplaceTxs) : Settles txs txs := fun _ tx htx _ => ⟨tx, htx, rfl⟩

theorem Settles.trans {a b c : ReplaceTxs} (hab : Settles a b) (hbc : Settles b c) :
    Settles a c := by
  intro replaceTxId tx htx hterminal
  obtain ⟨tx', htx', hstate⟩ := hab replaceTxId tx htx hterminal
  obtain ⟨tx'', htx'', hstate'⟩ := hbc replaceTxId tx' htx' (hstate ▸ hterminal)
  exact ⟨tx'', htx'', hstate'.trans hstate⟩

/-- Writing one transaction settles when a terminal one keeps its state. -/
theorem Settles.insert {txs : ReplaceTxs} {key : String} {new : ReplaceTx}
    (h : ∀ tx, txs[key]? = some tx → tx.state.terminal = true → new.state = tx.state) :
    Settles txs (txs.insert key new) := by
  intro replaceTxId tx htx hterminal
  rw [Dict.insert_get]
  by_cases hkey : key = replaceTxId
  · subst hkey
    exact ⟨new, by simp, h tx htx hterminal⟩
  · exact ⟨tx, by simp [hkey, htx], rfl⟩

variable (txs : ReplaceTxs) (now : ℤ) (replaceTxId : String) (state : ReplaceTxState)
  (lastError : Option String)

theorem updateReplaceTxState_settles :
    Settles txs (updateReplaceTxState txs now replaceTxId state lastError) := by
  unfold updateReplaceTxState
  split
  · exact Settles.refl txs
  · next tx htx =>
    refine Settles.insert fun tx' htx' hterminal => ?_
    rw [htx] at htx'
    cases htx'
    exact forwarded_terminal hterminal state

theorem upsertReplaceTx_settles (symbol side : String) (oldIds : List String) (newId : String) :
    Settles txs
      (upsertReplaceTx txs now replaceTxId symbol side oldIds newId state lastError) := by
  unfold upsertReplaceTx
  split
  · next hnone =>
    refine Settles.insert fun tx htx _ => ?_
    rw [hnone] at htx
    cases htx
  · next tx htx =>
    dsimp only
    split
    · refine Settles.insert fun tx' htx' _ => ?_
      rw [htx] at htx'
      cases htx'
      rfl
    · refine Settles.insert fun tx' htx' hterminal => ?_
      rw [htx] at htx'
      cases htx'
      exact forwarded_terminal hterminal state

end Replace

end Stage4Store
