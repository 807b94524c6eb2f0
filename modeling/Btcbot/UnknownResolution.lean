import Btcbot.Runs
import Btcbot.Stage3Frame

/-!
# What resolves an unknown order

An order keeps its place in the table whatever ids it takes. As long as no snapshot
names it, by its order id or by its client order id, a refresh leaves its ids and its
status alone, but for an open order missing from lists that were both read.
-/
namespace Stage3Service

open PyData ExchangeErrors Stage3Store Stage3Intent ExecutionWrapper Effects

section Table

/-- Order ids are the key of the table. -/
def UniqueIds (orders : List StoredOrder) : Prop := (orders.map StoredOrder.orderId).Nodup

/-- One of the ids names the order. -/
def Names (row : StoredOrder) (orderId : String) (clientOrderId : Option String) : Prop :=
  orderId = row.orderId ∨ row.clientOrderId ≠ none ∧ clientOrderId = row.clientOrderId

/-- The order at the place has the ids and the status it had. -/
def Kept (place : ℕ) (old : StoredOrder) (orders : List StoredOrder) : Prop :=
  ∃ row, orders[place]? = some row ∧ row.orderId = old.orderId ∧
    row.clientOrderId = old.clientOrderId ∧ row.status = old.status

variable {orders stored : List StoredOrder} {place : ℕ} {old : StoredOrder}

theorem eq_of_orderId (h : UniqueIds orders) {a b : StoredOrder} (ha : a ∈ orders)
    (hb : b ∈ orders) (hid : a.orderId = b.orderId) : a = b :=
  List.inj_on_of_nodup_map h ha hb hid

theorem getOrder_none {orderId : String} :
    (getOrder orders orderId).isSome = false ↔ orderId ∉ orders.map StoredOrder.orderId := by
  simp [getOrder]

theorem updateOrder_length (orderId : String) (f : StoredOrder → StoredOrder) :
    (updateOrder orders orderId f).length = orders.length := List.length_map _

/-- An update of one order to an id that is its own or free. -/
theorem unique_updateOrder (h : UniqueIds orders) {orderId target : String}
    {f : StoredOrder → StoredOrder} (hf : ∀ row, row.orderId = orderId → (f row).orderId = target)
    (htarget : target = orderId ∨ target ∉ orders.map StoredOrder.orderId) :
    UniqueIds (updateOrder orders orderId f) := by
  have hids : (updateOrder orders orderId f).map StoredOrder.orderId =
      (orders.map StoredOrder.orderId).map fun id => if id = orderId then target else id := by
    unfold updateOrder
    rw [List.map_map, List.map_map]
    refine List.map_congr_left fun row _ => ?_
    by_cases hid : row.orderId = orderId
    · simp [hid, hf row hid]
    · simp [hid]
  unfold UniqueIds
  rw [hids]
  refine h.map_on fun a ha b hb hab => ?_
  by_cases hao : a = orderId <;> by_cases hbo : b = orderId
  · rw [hao, hbo]
  · rw [if_pos hao, if_neg hbo] at hab
    rcases htarget with htarget | hfree
    · exact absurd (hab.symm.trans htarget) hbo
    · exact absurd (hab ▸ hb) hfree
  · rw [if_neg hao, if_pos hbo] at hab
    rcases htarget with htarget | hfree
    · exact absurd (hab.trans htarget) hao
    · exact absurd (hab ▸ ha) hfree
  · rwa [if_neg hao, if_neg hbo] at hab

/-- An update of another order, or of other columns. -/
theorem Kept.updateOrder (h : Kept place old orders) {orderId : String}
    {f : StoredOrder → StoredOrder}
    (hf : orderId = old.orderId → ∀ row, (f row).orderId = row.orderId ∧
      (f row).clientOrderId = row.clientOrderId ∧ (f row).status = row.status) :
    Kept place old (updateOrder orders orderId f) := by
  obtain ⟨row, hrow, hid, hclient, hstatus⟩ := h
  unfold Stage3Store.updateOrder
  refine ⟨if row.orderId = orderId then f row else row, by rw [List.getElem?_map, hrow]; rfl, ?_⟩
  split
  · next hsame =>
    obtain ⟨hid', hclient', hstatus'⟩ := hf (hsame.symm.trans hid) row
    exact ⟨hid'.trans hid, hclient'.trans hclient, hstatus'.trans hstatus⟩
  · exact ⟨hid, hclient, hstatus⟩

/-- The ways a save is written: over the order of its order id, over the order of its client
order id, or as a new order. -/
theorem saveOrder_cases {now : ℤ} {args : SaveOrderArgs}
    (hsave : saveOrder now orders args = .ok stored) :
    stored = updateOrder orders args.order.orderId (args.overwrite now) ∨
      (∃ existing ∈ orders, existing.clientOrderId ≠ none ∧
        existing.clientOrderId = args.order.clientOrderId ∧
        (args.order.orderId = existing.orderId ∨
          args.order.orderId ∉ orders.map StoredOrder.orderId) ∧
        stored = updateOrder orders existing.orderId (args.rekey now)) ∨
      (args.order.orderId ∉ orders.map StoredOrder.orderId ∧ stored = orders ++ [args.row now]) := by
  unfold saveOrder saveOrderFallback at hsave
  split at hsave
  · split at hsave
    · cases hsave
    · next hclient =>
      split at hsave
      · cases hsave
      · next existing hfind =>
        split at hsave
        · cases hsave
        · next hfree =>
          have hfound : existing.clientOrderId = args.order.clientOrderId := by
            simpa using List.find?_some hfind
          refine .inr (.inl ⟨existing, List.mem_of_find?_eq_some hfind, ?_, hfound, ?_,
            (Except.ok.inj hsave).symm⟩)
          · rw [hfound]
            exact fun hnone => hclient (.inl hnone)
          · by_cases hsame : args.order.orderId = existing.orderId
            · exact .inl hsame
            · refine .inr (getOrder_none.mp ((Bool.not_eq_true _).mp fun htaken => ?_))
              exact hfree ⟨Ne.symm hsame, htaken⟩
  · split at hsave
    · exact .inl (Except.ok.inj hsave).symm
    · next hfree =>
      exact .inr (.inr ⟨getOrder_none.mp ((Bool.not_eq_true _).mp hfree),
        (Except.ok.inj hsave).symm⟩)

theorem unique_saveOrder (h : UniqueIds orders) {now : ℤ} {args : SaveOrderArgs}
    (hsave : saveOrder now orders args = .ok stored) :
    UniqueIds stored ∧ orders.length ≤ stored.length := by
  rcases saveOrder_cases hsave with rfl | ⟨existing, -, -, -, hfree, rfl⟩ | ⟨hfree, rfl⟩
  · exact ⟨unique_updateOrder h (fun _ hrow => hrow) (.inl rfl), (updateOrder_length _ _).ge⟩
  · exact ⟨unique_updateOrder h (fun _ _ => rfl) hfree, (updateOrder_length _ _).ge⟩
  · refine ⟨?_, by simp⟩
    unfold UniqueIds
    rw [List.map_append]
    exact h.append (List.nodup_singleton _) (List.disjoint_singleton.mpr hfree)

/-- A save that names another order. -/
theorem kept_saveOrder (hunique : UniqueIds orders) (h : Kept place old orders) {now : ℤ}
    {args : SaveOrderArgs} (hsave : saveOrder now orders args = .ok stored)
    (hother : ¬ Names old args.order.orderId args.order.clientOrderId) : Kept place old stored := by
  rcases saveOrder_cases hsave with rfl | ⟨existing, hin, hsome, hclient, -, rfl⟩ | ⟨-, rfl⟩
  · exact h.updateOrder fun hid => absurd (.inl hid) hother
  · refine h.updateOrder fun hid => absurd ?_ hother
    obtain ⟨row, hrow, hrowid, hrowclient, -⟩ := h
    have hsame : row = existing :=
      eq_of_orderId hunique (List.mem_of_getElem? hrow) hin (hrowid.trans hid.symm)
    subst hsame
    exact .inr ⟨fun hnone => hsome (hrowclient.trans hnone), hclient.symm.trans hrowclient⟩
  · obtain ⟨row, hrow, hids⟩ := h
    refine ⟨row, ?_, hids⟩
    rw [List.getElem?_append_left (List.getElem?_eq_some_iff.mp hrow).1]
    exact hrow

end Table

section Evidence

def ExchangeAnswer.symbol : ExchangeAnswer → String
  | .openOrders symbol _ | .openOrdersFailed symbol | .allOrders symbol _ => symbol

def ExchangeAnswer.snapshots : ExchangeAnswer → List OrderSnapshot
  | .openOrders _ snapshots | .allOrders _ snapshots => snapshots
  | .openOrdersFailed _ => []

def Matches (row : StoredOrder) (snapshot : OrderSnapshot) : Prop :=
  Names row snapshot.orderId snapshot.clientOrderId

/-- What lets a refresh change the status of an order: a snapshot of it, or, for an order that
is not unknown, the open orders of its symbol. -/
def StatusEvidence (old : StoredOrder) (answers : List ExchangeAnswer) : Prop :=
  (∃ answer ∈ answers, ∃ snapshot ∈ answer.snapshots, Matches old snapshot) ∨
    old.status ≠ .unknown ∧ ∃ snapshots, .openOrders old.symbol snapshots ∈ answers

/-- The orders as a refresh begins, with the number of answers recorded before. -/
structure Watch where
  orders : List StoredOrder
  unique : UniqueIds orders
  earlier : ℕ

def Watch.answers (w : Watch) (s : Sys) : List ExchangeAnswer := s.answers.drop w.earlier

structure Watched (w : Watch) (s : Sys) : Prop where
  unique : UniqueIds s.orders
  earlier : w.earlier ≤ s.answers.length
  present : w.orders.length ≤ s.orders.length
  kept : ∀ (place : ℕ) (old : StoredOrder), w.orders[place]? = some old →
    StatusEvidence old (w.answers s) ∨ Kept place old s.orders

/-- And the open orders of a symbol, and the snapshots at hand, were answers of this refresh. -/
structure Watching (w : Watch) (symbol : String) (snapshots : List OrderSnapshot) (s : Sys) :
    Prop where
  watched : Watched w s
  opened : ∃ snapshots, .openOrders symbol snapshots ∈ w.answers s
  shown : ∀ snapshot ∈ snapshots, ∃ answer ∈ w.answers s, snapshot ∈ answer.snapshots

variable {w : Watch} {symbol : String} {snapshots : List OrderSnapshot} {s t : Sys}

/-- The orders and the answers stay as they are. -/
structure Calm (s t : Sys) : Prop where
  orders : t.orders = s.orders
  answers : t.answers = s.answers

instance : IsPreorder Sys Calm where
  refl _ := ⟨rfl, rfl⟩
  trans _ _ _ h g := ⟨g.orders.trans h.orders, g.answers.trans h.answers⟩

theorem Watched.calm (h : Watched w s) (hst : Calm s t) : Watched w t := by
  have hanswers : w.answers t = w.answers s := by rw [Watch.answers, hst.answers, Watch.answers]
  refine ⟨hst.orders ▸ h.unique, hst.answers ▸ h.earlier, hst.orders ▸ h.present, ?_⟩
  rw [hanswers, hst.orders]
  exact h.kept

theorem Watching.calm (h : Watching w symbol snapshots s) (hst : Calm s t) :
    Watching w symbol snapshots t := by
  have hanswers : w.answers t = w.answers s := by rw [Watch.answers, hst.answers, Watch.answers]
  refine ⟨h.watched.calm hst, ?_, ?_⟩
  · rw [hanswers]
    exact h.opened
  · rw [hanswers]
    exact h.shown

/-- What a write may do to the orders. -/
theorem Watched.write (h : Watched w s) {orders : List StoredOrder} (hunique : UniqueIds orders)
    (hlength : s.orders.length ≤ orders.length)
    (hkept : ∀ (place : ℕ), ∀ old ∈ w.orders, Kept place old s.orders →
      StatusEvidence old (w.answers s) ∨ Kept place old orders) :
    Watched w { s with orders := orders } where
  unique := hunique
  earlier := h.earlier
  present := h.present.trans hlength
  kept := fun place old hold =>
    (h.kept place old hold).elim .inl (hkept place old (List.mem_of_getElem? hold))

theorem Watch.answers_record (hearlier : w.earlier ≤ s.answers.length) (answer : ExchangeAnswer) :
    w.answers { s with answers := s.answers ++ [answer] } = w.answers s ++ [answer] :=
  List.drop_append_of_le_length hearlier

theorem StatusEvidence.mono {old : StoredOrder} {answers more : List ExchangeAnswer}
    (h : StatusEvidence old answers) : StatusEvidence old (answers ++ more) := by
  rcases h with ⟨answer, hin, hmatch⟩ | ⟨hstatus, snapshots, hin⟩
  · exact .inl ⟨answer, List.mem_append_left _ hin, hmatch⟩
  · exact .inr ⟨hstatus, snapshots, List.mem_append_left _ hin⟩

theorem Watched.record (h : Watched w s) (answer : ExchangeAnswer) :
    Watched w { s with answers := s.answers ++ [answer] } where
  unique := h.unique
  earlier := by
    rw [List.length_append]
    exact h.earlier.trans (Nat.le_add_right _ _)
  present := h.present
  kept := by
    rw [Watch.answers_record h.earlier]
    exact fun place old hold => (h.kept place old hold).imp_left StatusEvidence.mono

theorem Watching.record (h : Watching w symbol snapshots s) (answer : ExchangeAnswer) :
    Watching w symbol (snapshots ++ answer.snapshots)
      { s with answers := s.answers ++ [answer] } := by
  refine ⟨h.watched.record answer, ?_, fun snapshot hin => ?_⟩
  · obtain ⟨opened, hopened⟩ := h.opened
    rw [Watch.answers_record h.watched.earlier]
    exact ⟨opened, List.mem_append_left _ hopened⟩
  · rw [Watch.answers_record h.watched.earlier]
    rcases List.mem_append.mp hin with hold | hnew
    · obtain ⟨shown, hshown, hmem⟩ := h.shown snapshot hold
      exact ⟨shown, List.mem_append_left _ hshown, hmem⟩
    · exact ⟨answer, List.mem_append_right _ (List.mem_singleton_self _), hnew⟩

end Evidence

section Writes

variable (env : Env) (config : Config) {w : Watch} {symbol : String}
  {snapshots : List OrderSnapshot}

/-- A part of a refresh that keeps the watch. -/
abbrev Watches {α : Type} (w : Watch) (symbol : String) (snapshots : List OrderSnapshot)
    (m : ExecM α) : Prop :=
  Triple (Watching w symbol snapshots) m (fun _ => Watching w symbol snapshots)
    (fun _ => Watched w)

theorem watches_calm {α : Type} {m : ExecM α} (h : Keeps Calm m) : Watches w symbol snapshots m :=
  (h.frame fun _ _ hst hs => Watching.calm hs hst).conseq (fun _ hs => hs) (fun _ _ hq => hq)
    (fun _ _ he => he.watched)

theorem calm_ticked {s t : Sys} (h : Ticked s t) : Calm s t := by
  obtain ⟨n, rfl⟩ := h
  exact ⟨rfl, rfl⟩

theorem calm_ask {α : Type} (f : ℕ → α) : Keeps Calm (ask env f) :=
  ((ticks_point env).imp fun _ _ => calm_ticked).bind fun _ => Keeps.pure _

theorem calm_emit (event : Event) : Keeps Calm (emit event) := Keeps.modify fun _ => ⟨rfl, rfl⟩

theorem calm_setRegistry (f : Sys → Dict UnknownOrderRecord) : Keeps Calm (setRegistry f) :=
  Keeps.modify fun _ => ⟨rfl, rfl⟩

theorem calm_attempt_call {α : Type} (f : ℕ → Except Exc α) :
    Keeps Calm (attempt (call env f)) :=
  keeps_attempt ((calm_ask env f).bind fun r => keeps_liftExcept r)

/-- A write of one order to the columns that are not its ids. -/
theorem watches_writeOrder (orderId : String) (f : ℤ → StoredOrder → StoredOrder)
    (hids : ∀ t row, (f t row).orderId = row.orderId ∧
      (f t row).clientOrderId = row.clientOrderId)
    (hstatus : ∀ old ∈ w.orders, orderId = old.orderId → ∀ s, Watching w symbol snapshots s →
      StatusEvidence old (w.answers s) ∨ ∀ t row, (f t row).status = row.status) :
    Watches w symbol snapshots
      (writeOrders env fun t orders => updateOrder orders orderId (f t)) := by
  refine (watches_calm (calm_ask env env.now)).bind fun t => Triple.modify fun s hs => ?_
  have hunique : UniqueIds (updateOrder s.orders orderId (f t)) :=
    unique_updateOrder hs.watched.unique (fun row hrow => (hids t row).1.trans hrow) (.inl rfl)
  refine ⟨hs.watched.write hunique (updateOrder_length _ _).ge fun place old hold hkept => ?_,
    hs.opened, hs.shown⟩
  by_cases hid : orderId = old.orderId
  · rcases hstatus old hold hid s hs with hevidence | hsame
    · exact .inl hevidence
    · exact .inr (hkept.updateOrder fun _ row => ⟨(hids t row).1, (hids t row).2, hsame t row⟩)
  · exact .inr (hkept.updateOrder fun h => absurd h hid)

theorem watches_storeOrderStatus (args : StatusArgs)
    (hid : ∀ old ∈ w.orders, args.orderId = old.orderId → ∀ s, Watching w symbol snapshots s →
      StatusEvidence old (w.answers s)) :
    Watches w symbol snapshots (storeOrderStatus env args) :=
  watches_writeOrder env args.orderId (fun t => args.apply t) (fun _ _ => ⟨rfl, rfl⟩)
    fun old hold h s hs => .inl (hid old hold h s hs)

theorem watches_storeOrder (args : SaveOrderArgs)
    (hid : ∀ old, Names old args.order.orderId args.order.clientOrderId →
      ∀ s, Watching w symbol snapshots s → StatusEvidence old (w.answers s)) :
    Watches w symbol snapshots (storeOrder env args) := by
  refine (watches_calm (calm_ask env env.now)).bind fun t => ?_
  refine Triple.bind (Triple.get (Q := fun v s => v = s ∧ Watching w symbol snapshots s)
    fun s hs => ⟨rfl, hs⟩) fun s => ?_
  intro u hu
  obtain ⟨rfl, hs⟩ := hu
  rw [ends_bind]
  cases hsave : saveOrder t s.orders args with
  | error exc => exact hs.watched
  | ok stored =>
    obtain ⟨hunique, hlength⟩ := unique_saveOrder hs.watched.unique hsave
    refine ⟨hs.watched.write hunique hlength fun place old _ hkept => ?_, hs.opened, hs.shown⟩
    by_cases hnames : Names old args.order.orderId args.order.clientOrderId
    · exact .inl (hid old hnames s hs)
    · exact .inr (kept_saveOrder hs.watched.unique hkept hsave hnames)

/-- A snapshot at hand that names an order is evidence. -/
theorem Watching.evidence {s : Sys} (h : Watching w symbol snapshots s) {snapshot : OrderSnapshot}
    (hin : snapshot ∈ snapshots) {old : StoredOrder} (hmatch : Matches old snapshot) :
    StatusEvidence old (w.answers s) := by
  obtain ⟨answer, hanswer, hmem⟩ := h.shown snapshot hin
  exact .inl ⟨answer, hanswer, snapshot, hmem, hmatch⟩

theorem watches_storeSnapshotStatus {orderId : String} {snapshot : OrderSnapshot}
    (hin : snapshot ∈ snapshots)
    (hmatch : ∀ old ∈ w.orders, orderId = old.orderId → Matches old snapshot)
    (raw : Option String) :
    Watches w symbol snapshots (storeSnapshotStatus env orderId snapshot raw) :=
  watches_storeOrderStatus env _ fun old hold hid _ hs => hs.evidence hin (hmatch old hold hid)

theorem watches_saveReconciledSnapshot {snapshot : OrderSnapshot} (hin : snapshot ∈ snapshots)
    (raw : Option String) :
    Watches w symbol snapshots (saveReconciledSnapshot env snapshot raw) := by
  refine (watches_calm Keeps.get).bind fun s => ?_
  split
  · exact watches_calm (Keeps.pure ())
  · refine (watches_calm (calm_ask env env.now)).bind fun _ => ?_
    refine (watches_calm (calm_ask env env.now)).bind fun _ => ?_
    exact watches_storeOrder env _ fun _ hnames _ hs => hs.evidence hin hnames

theorem watches_markUnknownUnresolved (row : StoredOrder) (nowMs : ℤ) :
    Watches w symbol snapshots (markUnknownUnresolved env config row nowMs) := by
  refine (watches_writeOrder env row.orderId _ ?_ ?_).bind fun _ =>
    watches_calm (Keeps.modify fun _ => ⟨rfl, rfl⟩)
  · exact fun _ _ => ⟨rfl, rfl⟩
  · exact fun _ _ _ _ _ => .inr fun _ _ => rfl

end Writes

section Loops

variable (env : Env) (config : Config) {w : Watch} {symbol : String}
  {openSnapshots : List OrderSnapshot}

/-- The snapshots at hand: the open ones, and the recent ones once they are read. -/
def atHand (openSnapshots : List OrderSnapshot) (acc : RefreshAcc) : List OrderSnapshot :=
  openSnapshots ++ acc.recent.getD []

/-- A part of the loop over the orders of a symbol. -/
abbrev Rounds (w : Watch) (symbol : String) (openSnapshots : List OrderSnapshot)
    (acc : RefreshAcc) (m : ExecM RefreshAcc) : Prop :=
  Triple (Watching w symbol (atHand openSnapshots acc)) m
    (fun acc' => Watching w symbol (atHand openSnapshots acc')) (fun _ => Watched w)

variable {acc : RefreshAcc}

theorem rounds_pure {acc' : RefreshAcc} (h : acc'.recent = acc.recent) :
    Rounds w symbol openSnapshots acc (pure acc') := by
  refine Triple.pure fun s hs => ?_
  rw [atHand, h]
  exact hs

theorem saveOpenSnapshot_rounds {snapshot : OrderSnapshot} (hin : snapshot ∈ openSnapshots) :
    Rounds w symbol openSnapshots acc (saveOpenSnapshot env acc snapshot) := by
  have hhand : snapshot ∈ atHand openSnapshots acc := List.mem_append_left _ hin
  refine (watches_calm Keeps.get).bind fun s => ?_
  refine (watches_saveReconciledSnapshot env hhand _).bind fun _ => ?_
  refine (watches_storeSnapshotStatus env hhand (fun _ _ hid => .inl hid) _).bind fun _ => ?_
  exact rounds_pure rfl

/-- An order of the symbol, as it was when the refresh began. -/
structure Local (w : Watch) (symbol : String) (row : StoredOrder) : Prop where
  symbol : row.symbol = symbol
  mem : row ∈ w.orders

theorem Local.matches {row : StoredOrder} (h : Local w symbol row) {snapshot : OrderSnapshot}
    (hmatch : Matches row snapshot) :
    ∀ old ∈ w.orders, row.orderId = old.orderId → Matches old snapshot :=
  fun _ hold hid => eq_of_orderId w.unique h.mem hold hid ▸ hmatch

variable {row : StoredOrder}

/-- Only an order that is not unknown is closed for being missing. -/
theorem closeMissing_rounds (hrow : Local w symbol row) (ctx : RefreshContext) :
    Rounds w symbol openSnapshots acc (closeMissing env config ctx acc row) := by
  have hreject (raw : String) (hstatus : row.status ≠ .unknown) :
      Watches w symbol (atHand openSnapshots acc) (storeOrderStatus env {
        orderId := row.orderId
        status := .rejected
        exchangeStatusRaw := some raw
        reconciled := some true
        lastSeenAt := some ctx.nowMs }) := by
    refine watches_storeOrderStatus env _ fun old hold hid s hs => .inr ?_
    obtain rfl : row = old := eq_of_orderId w.unique hrow.mem hold hid
    rw [hrow.symbol]
    exact ⟨hstatus, hs.opened⟩
  refine (watches_calm (calm_ask env env.now)).bind fun t => ?_
  cases hstatus : row.status with
  | new =>
    refine Triple.ite (fun _ => ?_) fun _ => rounds_pure rfl
    exact (hreject _ (by simp [hstatus])).bind fun _ => rounds_pure rfl
  | «open» | partial_ => exact (hreject _ (by simp [hstatus])).bind fun _ => rounds_pure rfl
  | unknown =>
    exact (watches_markUnknownUnresolved env config row ctx.nowMs).bind fun _ => rounds_pure rfl
  | filled | canceled | rejected => exact rounds_pure rfl

theorem settleMatched_rounds (hrow : Local w symbol row) {matched : OrderSnapshot}
    (hin : matched ∈ atHand openSnapshots acc) (hmatch : Matches row matched) :
    Rounds w symbol openSnapshots acc (settleMatched env acc row matched) := by
  refine (watches_saveReconciledSnapshot env hin none).bind fun _ => ?_
  refine (watches_storeSnapshotStatus env hin (fun _ _ hid => .inl hid) _).bind fun _ => ?_
  refine Triple.ite (fun _ => ?_) fun _ => rounds_pure rfl
  exact (watches_storeSnapshotStatus env hin (hrow.matches hmatch) _).bind fun _ => rounds_pure rfl

theorem loadRecent_rounds (ctx : RefreshContext) (due : List StoredOrder) :
    Rounds w symbol openSnapshots acc (loadRecent env config ctx symbol due acc) := by
  refine Triple.ite (fun _ => rounds_pure rfl) fun hneeded => ?_
  refine (watches_calm (calm_attempt_call env _)).bind fun r => ?_
  have hnone : acc.recent = none := by
    cases hrecent : acc.recent with
    | none => rfl
    | some recent => simp [hrecent] at hneeded
  cases r with
  | error exc =>
    refine (watches_calm (calm_emit _)).bind fun _ => rounds_pure ?_
    unfold RefreshAcc.failed
    split <;> rfl
  | ok recent =>
    refine Triple.bind (Q := fun _ => Watching w symbol (openSnapshots ++ recent))
      (Triple.modify fun s hs => ?_) fun _ => Triple.pure fun s hs => hs
    have hrecord := hs.record (.allOrders symbol recent)
    rwa [atHand, hnone, Option.getD_none, List.append_nil] at hrecord

theorem matchOrderByClientId_matches {snapshots : List OrderSnapshot} {found : OrderSnapshot}
    (h : row.clientOrderId.bind (matchOrderByClientId snapshots) = some found) :
    found ∈ snapshots ∧ Matches row found := by
  obtain ⟨clientOrderId, hclient, hfind⟩ := Option.bind_eq_some_iff.mp h
  refine ⟨List.mem_of_find?_eq_some hfind, .inr ⟨by simp [hclient], ?_⟩⟩
  have hfound : found.clientOrderId = some clientOrderId := by
    simpa using List.find?_some hfind
  rw [hfound, hclient]

theorem matchExistingOrder_matches {snapshots : List OrderSnapshot} {found : OrderSnapshot}
    (h : matchExistingOrder row.orderId row.clientOrderId snapshots = some found) :
    found ∈ snapshots ∧ Matches row found := by
  unfold matchExistingOrder at h
  rcases Option.or_eq_some_iff.mp h with hfind | ⟨-, hfind⟩
  · refine ⟨List.mem_of_find?_eq_some hfind, .inl ?_⟩
    simpa using List.find?_some hfind
  · exact matchOrderByClientId_matches hfind

theorem reconcileLocal_rounds (hrow : Local w symbol row) (ctx : RefreshContext)
    (due : List StoredOrder) :
    Rounds w symbol openSnapshots acc
      (reconcileLocal env config ctx symbol openSnapshots due acc row) := by
  refine Triple.ite (fun _ => rounds_pure rfl) fun _ => ?_
  split
  next openMatch hfound =>
    obtain ⟨hin, hmatch⟩ := matchOrderByClientId_matches hfound
    refine Triple.ite (fun _ => ?_) fun _ => rounds_pure rfl
    exact (watches_storeSnapshotStatus env (List.mem_append_left _ hin) (hrow.matches hmatch)
      _).bind fun _ => rounds_pure rfl
  · refine Triple.ite (fun _ => rounds_pure rfl) fun _ => ?_
    refine (loadRecent_rounds env config ctx due).bind fun acc' => ?_
    split
    · exact rounds_pure rfl
    next recent hrecent =>
      split
      · exact closeMissing_rounds env config hrow ctx
      next matched hfound =>
        obtain ⟨hin, hmatch⟩ := matchExistingOrder_matches hfound
        refine settleMatched_rounds env hrow (List.mem_append_right _ ?_) hmatch
        rw [hrecent]
        exact hin

theorem refreshSymbol_watched (ctx : RefreshContext)
    (hlocal : ∀ row ∈ ctx.localOrders, row ∈ w.orders) :
    Triple (Watched w) (refreshSymbol env config ctx acc symbol) (fun _ => Watched w)
      (fun _ => Watched w) := by
  have calm {α : Type} {m : ExecM α} (h : Keeps Calm m) :
      Triple (Watched w) m (fun _ => Watched w) (fun _ => Watched w) :=
    h.frame fun _ _ hst hs => Watched.calm hs hst
  refine (calm Keeps.get).bind fun t => ?_
  refine Triple.ite (fun _ => Triple.pure fun _ hs => hs) fun _ => ?_
  refine (calm (Keeps.modify ?_)).bind fun _ => (calm (calm_attempt_call env _)).bind fun r => ?_
  · exact fun _ => ⟨rfl, rfl⟩
  cases r with
  | error exc =>
    refine Triple.bind (Q := fun _ => Watched w) (Triple.modify fun s hs => hs.record _) fun _ => ?_
    exact (calm (calm_emit _)).bind fun _ => Triple.pure fun _ hs => hs
  | ok items =>
    refine Triple.bind (Q := fun _ => Watching w symbol (openItemsToSnapshots items))
      (Triple.modify fun s hs => ?_) fun _ => ?_
    · refine ⟨hs.record _, ⟨openItemsToSnapshots items, ?_⟩, fun snapshot hin =>
        ⟨.openOrders symbol (openItemsToSnapshots items), ?_, hin⟩⟩
      all_goals
        rw [Watch.answers_record hs.earlier]
        exact List.mem_append_right _ (List.mem_singleton_self _)
    · refine Triple.bind (Q := fun acc' =>
        Watching w symbol (atHand (openItemsToSnapshots items) acc')) ?_ fun acc' => ?_
      · refine (Triple.foldlM (I := fun acc' =>
          Watching w symbol (atHand (openItemsToSnapshots items) acc')) _
          (fun snapshot hin acc' => saveOpenSnapshot_rounds env hin) _).conseq
          (fun s hs => ?_) (fun _ _ h => h) (fun _ _ h => h)
        simpa [atHand] using hs
      · refine (Triple.foldlM (I := fun acc' =>
          Watching w symbol (atHand (openItemsToSnapshots items) acc')) _
          (fun row hin acc' => reconcileLocal_rounds env config ?_ ctx _) _).conseq
          (fun _ hs => hs) (fun _ _ h => h.watched) (fun _ _ h => h)
        obtain ⟨hmem, hsymbol⟩ := List.mem_filter.mp hin
        exact ⟨by simpa using hsymbol, hlocal row hmem⟩

/-- The watch over a whole refresh. -/
theorem refreshOrderLifecycle_watched (symbols : List String) (skipNonEssential : Bool) :
    Triple (fun s => s.orders = w.orders ∧ s.answers.length = w.earlier)
      (refreshOrderLifecycle env config symbols skipNonEssential) (fun _ => Watched w)
      (fun _ => Watched w) := by
  have hstart (s : Sys) (hs : s.orders = w.orders ∧ s.answers.length = w.earlier) :
      Watched w s := by
    refine ⟨hs.1 ▸ w.unique, hs.2.ge, hs.1 ▸ le_rfl, fun place old hold => .inr ?_⟩
    exact ⟨old, hs.1 ▸ hold, rfl, rfl, rfl⟩
  have calm {α : Type} {m : ExecM α} (h : Keeps Calm m) :
      Triple (Watched w) m (fun _ => Watched w) (fun _ => Watched w) :=
    h.frame fun _ _ hst hs => Watched.calm hs hst
  refine Triple.ite (fun _ => ?_) fun _ => ?_
  · refine Triple.conseq ?_ hstart (fun _ _ h => h) (fun _ _ h => h)
    refine (calm (Keeps.modify ?_)).bind fun _ => Triple.pure fun _ hs => hs
    exact fun _ => ⟨rfl, rfl⟩
  · refine Triple.bind (Q := fun _ s => s.orders = w.orders ∧ s.answers.length = w.earlier)
      (Triple.modify fun _ hs => hs) fun _ => ?_
    refine Triple.bind (Q := fun _ => Watched w) ?_ fun _ =>
      (calm (calm_emit _)).bind fun _ => Triple.pure fun _ hs => hs
    refine Triple.bind (Triple.get (Q := fun v s => v.orders = w.orders ∧ Watched w s)
      fun s hs => ⟨hs.1, hstart s hs⟩) fun v => Triple.assume fun hv => ?_
    refine (calm (calm_ask env env.now)).bind fun t => ?_
    refine (calm (calm_ask env env.monotonic)).bind fun nowMono => ?_
    refine (calm Keeps.get).bind fun u => ?_
    refine Triple.ite (fun _ => ?_) fun _ => ?_
    · refine (calm (Keeps.modify ?_)).bind fun _ => Triple.pure fun _ hs => hs
      exact fun _ => ⟨rfl, rfl⟩
    · have hlocal : ∀ row ∈ findOpenOrUnknownOrders v.orders (sortedSymbols symbols),
          row ∈ w.orders := fun row hin => hv ▸ (List.mem_filter.mp hin).1
      refine Triple.bind (Q := fun _ => Watched w) (Triple.foldlM (I := fun _ => Watched w) _
        (fun symbol _ acc => refreshSymbol_watched env config _ hlocal) _) fun acc => ?_
      refine (calm (Keeps.modify ?_)).bind fun _ =>
        (calm (calm_setRegistry _)).bind fun _ => Triple.pure fun _ hs => hs
      exact fun _ => ⟨rfl, rfl⟩

end Loops

section Answers

variable (env : Env) (config : Config) {symbol : String} {acc : RefreshAcc}

/-- Only recent orders of the symbol were answered. -/
def RecentOnly (symbol : String) (s t : Sys) : Prop :=
  ∃ added, t.answers = s.answers ++ added ∧
    ∀ answer ∈ added, ∃ snapshots, answer = ExchangeAnswer.allOrders symbol snapshots

instance : IsPreorder Sys (RecentOnly symbol) where
  refl _ := ⟨[], (List.append_nil _).symm, List.forall_mem_nil _⟩
  trans := by
    rintro s t u ⟨first, hfirst, hall⟩ ⟨second, hsecond, hall'⟩
    refine ⟨first ++ second, by rw [hsecond, hfirst, List.append_assoc], fun answer hin => ?_⟩
    exact (List.mem_append.mp hin).elim (hall answer) (hall' answer)

theorem recentOnly_same {s t : Sys} (h : t.answers = s.answers) : RecentOnly symbol s t :=
  ⟨[], by rw [h, List.append_nil], List.forall_mem_nil _⟩

theorem recent_calm {α : Type} {m : ExecM α} (h : Keeps Calm m) : Keeps (RecentOnly symbol) m :=
  h.imp fun _ _ hst => recentOnly_same hst.answers

theorem recent_writeOrders (f : ℤ → List StoredOrder → List StoredOrder) :
    Keeps (RecentOnly symbol) (writeOrders env f) :=
  (recent_calm (calm_ask env env.now)).bind fun _ => Keeps.modify fun _ => recentOnly_same rfl

theorem recent_saveReconciledSnapshot (snapshot : OrderSnapshot) (raw : Option String) :
    Keeps (RecentOnly symbol) (saveReconciledSnapshot env snapshot raw) := by
  have hclock : Keeps (RecentOnly symbol) (now env) := recent_calm (calm_ask env env.now)
  refine Keeps.get.bind fun s => ?_
  split
  · exact Keeps.pure ()
  · refine hclock.bind fun _ => hclock.bind fun _ => hclock.bind fun _ => Keeps.get.bind fun _ => ?_
    exact (keeps_liftExcept _).bind fun _ => Keeps.modify fun _ => recentOnly_same rfl

theorem recent_saveOpenSnapshot (snapshot : OrderSnapshot) :
    Keeps (RecentOnly symbol) (saveOpenSnapshot env acc snapshot) :=
  Keeps.get.bind fun _ => (recent_saveReconciledSnapshot env snapshot _).bind fun _ =>
    (recent_writeOrders env _).bind fun _ => Keeps.pure _

theorem recent_closeMissing (ctx : RefreshContext) (row : StoredOrder) :
    Keeps (RecentOnly symbol) (closeMissing env config ctx acc row) := by
  refine (recent_calm (calm_ask env env.now)).bind fun t => ?_
  cases row.status with
  | new => exact ((recent_writeOrders env _).bind fun _ => Keeps.pure _).ite (Keeps.pure _)
  | «open» | partial_ => exact (recent_writeOrders env _).bind fun _ => Keeps.pure _
  | unknown =>
    refine Keeps.bind ((recent_writeOrders env _).bind fun _ => Keeps.modify ?_) fun _ =>
      Keeps.pure _
    exact fun _ => recentOnly_same rfl
  | filled | canceled | rejected => exact Keeps.pure _

theorem recent_settleMatched (row : StoredOrder) (matched : OrderSnapshot) :
    Keeps (RecentOnly symbol) (settleMatched env acc row matched) := by
  refine (recent_saveReconciledSnapshot env matched none).bind fun _ => ?_
  refine (recent_writeOrders env _).bind fun _ => ?_
  exact ((recent_writeOrders env _).bind fun _ => Keeps.pure _).ite (Keeps.pure _)

theorem recent_loadRecent (ctx : RefreshContext) (due : List StoredOrder) :
    Keeps (RecentOnly symbol) (loadRecent env config ctx symbol due acc) := by
  refine (Keeps.pure _).ite ((recent_calm (calm_attempt_call env _)).bind fun r => ?_)
  cases r with
  | error exc => exact (recent_calm (calm_emit _)).bind fun _ => Keeps.pure _
  | ok recent =>
    refine Keeps.bind (Keeps.modify fun s => ⟨[.allOrders symbol recent], rfl, ?_⟩) fun _ =>
      Keeps.pure _
    exact fun answer hin => ⟨recent, List.mem_singleton.mp hin⟩

theorem recent_reconcileLocal (ctx : RefreshContext) (openSnapshots : List OrderSnapshot)
    (due : List StoredOrder) (row : StoredOrder) :
    Keeps (RecentOnly symbol)
      (reconcileLocal env config ctx symbol openSnapshots due acc row) := by
  refine (Keeps.pure _).ite ?_
  split
  · exact ((recent_writeOrders env _).bind fun _ => Keeps.pure _).ite (Keeps.pure _)
  · refine (Keeps.pure _).ite ((recent_loadRecent env config ctx due).bind fun acc' => ?_)
    split
    · exact Keeps.pure _
    · split
      · exact recent_closeMissing env config ctx row
      · exact recent_settleMatched env row _

/-- What one symbol adds to the answers. -/
inductive Round (symbol : String) : List ExchangeAnswer → Prop where
  | skipped : Round symbol []
  | failed : Round symbol [.openOrdersFailed symbol]
  | opened (snapshots : List OrderSnapshot) (rest : List ExchangeAnswer)
      (h : ∀ answer ∈ rest, ∃ recent, answer = .allOrders symbol recent) :
      Round symbol (.openOrders symbol snapshots :: rest)

theorem Round.own {added : List ExchangeAnswer} (h : Round symbol added) :
    ∀ answer ∈ added, answer.symbol = symbol := by
  intro answer hin
  cases h with
  | skipped => cases hin
  | failed =>
    rw [List.mem_singleton.mp hin]
    rfl
  | opened snapshots rest hrest =>
    rcases List.mem_cons.mp hin with rfl | hin
    · rfl
    · obtain ⟨recent, rfl⟩ := hrest answer hin
      rfl

theorem Round.failed_only {added : List ExchangeAnswer} (h : Round symbol added)
    (hfailed : ExchangeAnswer.openOrdersFailed symbol ∈ added) :
    added = [.openOrdersFailed symbol] := by
  cases h with
  | skipped => cases hfailed
  | failed => rfl
  | opened snapshots rest hrest =>
    rcases List.mem_cons.mp hfailed with heq | hin
    · cases heq
    · obtain ⟨recent, heq⟩ := hrest _ hin
      cases heq

variable {answers : List ExchangeAnswer}

theorem refreshSymbol_round (ctx : RefreshContext) :
    Triple (fun s => s.answers = answers) (refreshSymbol env config ctx acc symbol)
      (fun _ t => ∃ added, t.answers = answers ++ added ∧ Round symbol added)
      (fun _ t => ∃ added, t.answers = answers ++ added ∧ Round symbol added) := by
  have calm {α : Type} {m : ExecM α} (h : Keeps Calm m) (before : List ExchangeAnswer)
      (hround : Round symbol before) :
      Triple (fun s => s.answers = answers ++ before) m (fun _ s => s.answers = answers ++ before)
        (fun _ t => ∃ added, t.answers = answers ++ added ∧ Round symbol added) :=
    (h.frame fun _ _ hst hs => hst.answers.trans hs).conseq (fun _ hs => hs) (fun _ _ hq => hq)
      (fun _ _ he => ⟨before, he, hround⟩)
  suffices hall : Triple (fun s => s.answers = answers ++ []) (refreshSymbol env config ctx acc
      symbol) (fun _ t => ∃ added, t.answers = answers ++ added ∧ Round symbol added)
      (fun _ t => ∃ added, t.answers = answers ++ added ∧ Round symbol added) by
    simpa using hall
  refine (calm Keeps.get [] .skipped).bind fun t => ?_
  refine Triple.ite (fun _ => Triple.pure fun _ hs => ⟨[], hs, .skipped⟩) fun _ => ?_
  refine (calm (Keeps.modify ?_) [] .skipped).bind fun _ => ?_
  · exact fun _ => ⟨rfl, rfl⟩
  refine (calm (calm_attempt_call env _) [] .skipped).bind fun r => ?_
  cases r with
  | error exc =>
    refine Triple.bind (Q := fun _ s => s.answers = answers ++ [.openOrdersFailed symbol])
      (Triple.modify fun s hs => ?_) fun _ => ?_
    · rw [List.append_nil] at hs
      rw [hs]
    · exact (calm (calm_emit _) _ .failed).bind fun _ => Triple.pure fun _ hs => ⟨_, hs, .failed⟩
  | ok items =>
    have recent {α : Type} {m : ExecM α} (h : Keeps (RecentOnly symbol) m) :
        Maintains (fun s => ∃ rest, s.answers = answers ++
            .openOrders symbol (openItemsToSnapshots items) :: rest ∧
          ∀ answer ∈ rest, ∃ recent, answer = .allOrders symbol recent) m := by
      refine h.frame fun s t hst hs => ?_
      obtain ⟨rest, hs, hrest⟩ := hs
      obtain ⟨added, ht, hadded⟩ := hst
      refine ⟨rest ++ added, by rw [ht, hs, List.append_assoc, List.cons_append], ?_⟩
      exact fun answer hin => (List.mem_append.mp hin).elim (hrest answer) (hadded answer)
    refine Triple.bind (Q := fun _ s => ∃ rest, s.answers = answers ++
        .openOrders symbol (openItemsToSnapshots items) :: rest ∧
          ∀ answer ∈ rest, ∃ recent, answer = .allOrders symbol recent)
      (Triple.modify fun s hs => ?_) fun _ => ?_
    · rw [List.append_nil] at hs
      exact ⟨[], by rw [hs], List.forall_mem_nil _⟩
    · refine (recent (Keeps.bind (Keeps.foldlM (fun acc' snapshot =>
        recent_saveOpenSnapshot env snapshot) _ _) fun acc' => Keeps.foldlM (fun acc' row =>
          recent_reconcileLocal env config ctx _ _ row) _ acc')).conseq (fun _ hs => hs) ?_ ?_
      all_goals
        rintro _ t ⟨rest, ht, hrest⟩
        exact ⟨_, ht, .opened _ rest hrest⟩

/-- A symbol whose open orders failed has no other answer. -/
def Settled (answers : List ExchangeAnswer) : Prop :=
  ∀ symbol, .openOrdersFailed symbol ∈ answers →
    ∀ answer ∈ answers, answer.symbol = symbol → answer = .openOrdersFailed symbol

theorem settled_nil : Settled [] := fun _ hfailed => by cases hfailed

theorem Settled.append {added : List ExchangeAnswer} (h : Settled answers)
    (hround : Round symbol added) (hnew : ∀ answer ∈ answers, answer.symbol ≠ symbol) :
    Settled (answers ++ added) := by
  intro other hfailed answer hin hsymbol
  rcases List.mem_append.mp hfailed with hold | hadded
  · rcases List.mem_append.mp hin with hin | hin
    · exact h other hold answer hin hsymbol
    · have hother : other = symbol := hsymbol.symm.trans (hround.own answer hin)
      exact absurd hother (hnew _ hold)
  · obtain rfl : other = symbol := hround.own _ hadded
    rcases List.mem_append.mp hin with hin | hin
    · exact absurd hsymbol (hnew answer hin)
    · rw [hround.failed_only hadded] at hin
      exact List.mem_singleton.mp hin

theorem refreshAll_settled (ctx : RefreshContext) {symbols : List String} (hnodup : symbols.Nodup)
    (acc : RefreshAcc) :
    Triple (fun s => ∃ added, s.answers = answers ++ added ∧ Settled added ∧
        ∀ answer ∈ added, answer.symbol ∉ symbols)
      (symbols.foldlM (refreshSymbol env config ctx) acc)
      (fun _ t => ∃ added, t.answers = answers ++ added ∧ Settled added)
      (fun _ t => ∃ added, t.answers = answers ++ added ∧ Settled added) := by
  induction symbols generalizing acc with
  | nil => exact Triple.pure fun _ ⟨added, hs, hsettled, _⟩ => ⟨added, hs, hsettled⟩
  | cons symbol symbols ih =>
    obtain ⟨hnotin, hnodup⟩ := List.nodup_cons.mp hnodup
    rw [List.foldlM_cons]
    have hround : Triple (fun s => ∃ added, s.answers = answers ++ added ∧ Settled added ∧
          ∀ answer ∈ added, answer.symbol ∉ symbol :: symbols)
        (refreshSymbol env config ctx acc symbol)
        (fun _ t => ∃ added, t.answers = answers ++ added ∧ Settled added ∧
          ∀ answer ∈ added, answer.symbol ∉ symbols)
        (fun _ t => ∃ added, t.answers = answers ++ added ∧ Settled added) := by
      rintro s ⟨added, hs, hsettled, hnew⟩
      have hfresh : ∀ answer ∈ added, answer.symbol ≠ symbol := fun answer hin heq =>
        hnew answer hin (heq ▸ List.mem_cons_self)
      have hend : ∀ t : Sys, (∃ more, t.answers = (answers ++ added) ++ more ∧ Round symbol more) →
          ∃ added, t.answers = answers ++ added ∧ Settled added ∧
            ∀ answer ∈ added, answer.symbol ∉ symbols := by
        rintro t ⟨more, ht, hmore⟩
        refine ⟨added ++ more, by rw [ht, List.append_assoc], hsettled.append hmore hfresh, ?_⟩
        intro answer hin hsymbol
        rcases List.mem_append.mp hin with hin | hin
        · exact hnew answer hin (List.mem_cons_of_mem _ hsymbol)
        · exact hnotin (hmore.own answer hin ▸ hsymbol)
      refine (refreshSymbol_round env config ctx s hs).mono (fun _ t ht => hend t ht)
        fun _ t ht => ?_
      obtain ⟨added, ht, hsettled, -⟩ := hend t ht
      exact ⟨added, ht, hsettled⟩
    exact hround.bind fun acc' => ih hnodup acc'

theorem sortedSymbols_nodup (symbols : List String) : (sortedSymbols symbols).Nodup :=
  (List.perm_insertionSort _ _).nodup_iff.mpr (List.nodup_dedup _)

/-- The answers of a whole refresh. -/
theorem refreshOrderLifecycle_settled (symbols : List String) (skipNonEssential : Bool) :
    Triple (fun s => s.answers = answers)
      (refreshOrderLifecycle env config symbols skipNonEssential)
      (fun _ t => ∃ added, t.answers = answers ++ added ∧ Settled added)
      (fun _ t => ∃ added, t.answers = answers ++ added ∧ Settled added) := by
  have hnone (t : Sys) (ht : t.answers = answers) :
      ∃ added, t.answers = answers ++ added ∧ Settled added :=
    ⟨[], by rw [ht, List.append_nil], settled_nil⟩
  have start {α : Type} {m : ExecM α} (h : Keeps Calm m) :
      Triple (fun s => s.answers = answers) m (fun _ s => s.answers = answers)
        (fun _ t => ∃ added, t.answers = answers ++ added ∧ Settled added) :=
    (h.frame fun _ _ hst hs => hst.answers.trans hs).conseq (fun _ hs => hs) (fun _ _ hq => hq)
      (fun _ t ht => hnone t ht)
  have finish {α : Type} {m : ExecM α} (h : Keeps Calm m) :
      Maintains (fun t => ∃ added, t.answers = answers ++ added ∧ Settled added) m :=
    h.frame fun _ t hst hs => by rwa [hst.answers]
  refine Triple.ite (fun _ => ?_) fun _ => ?_
  · refine (start (Keeps.modify ?_)).bind fun _ => Triple.pure hnone
    exact fun _ => ⟨rfl, rfl⟩
  · refine (start (calm_emit _)).bind fun _ => ?_
    refine Triple.bind (Q := fun _ t => ∃ added, t.answers = answers ++ added ∧ Settled added) ?_
      fun _ => (finish (calm_emit _)).bind fun _ => Triple.pure fun _ hs => hs
    refine (start Keeps.get).bind fun s => (start (calm_ask env env.now)).bind fun t => ?_
    refine (start (calm_ask env env.monotonic)).bind fun nowMono => (start Keeps.get).bind fun u => ?_
    refine Triple.ite (fun _ => ?_) fun _ => ?_
    · refine (start (Keeps.modify ?_)).bind fun _ => Triple.pure hnone
      exact fun _ => ⟨rfl, rfl⟩
    · refine Triple.bind (Q := fun _ t => ∃ added, t.answers = answers ++ added ∧ Settled added)
        ((refreshAll_settled env config _ (sortedSymbols_nodup symbols) _).conseq (fun s hs =>
          ⟨[], by rw [hs, List.append_nil], settled_nil, List.forall_mem_nil _⟩)
        (fun _ _ h => h) (fun _ _ h => h)) fun acc => ?_
      refine (finish (Keeps.modify ?_)).bind fun _ =>
        (finish (calm_setRegistry _)).bind fun _ => Triple.pure fun _ hs => hs
      exact fun _ => ⟨rfl, rfl⟩

end Answers

section Runs

/-- A refresh, or a new service over the store of the old one. -/
inductive RefreshInput where
  | refresh (config : Config) (symbols : List String) (skipNonEssential : Bool)
  | restart (config : Config)

def RefreshInput.input : RefreshInput → ServiceInput
  | .refresh config symbols skipNonEssential =>
    .call config (.refreshOrderLifecycle symbols skipNonEssential)
  | .restart config => .restart config

def stepRefresh (env : Env) (s : Sys) (input : RefreshInput) : Sys := stepInput env s input.input

/-- Each list holds orders of the symbol asked for, and an id of an order stored names that
order. -/
structure ListsSound (orders : List StoredOrder) (answers : List ExchangeAnswer) : Prop where
  own : ∀ answer ∈ answers, ∀ snapshot ∈ answer.snapshots,
    normalizeSymbol snapshot.pairSymbol = answer.symbol
  unique : ∀ answer ∈ answers, ∀ snapshot ∈ answer.snapshots, ∀ row ∈ orders,
    Matches row snapshot → row.symbol = normalizeSymbol snapshot.pairSymbol

/-- What a refresh did to an order, by the answers it got. -/
structure Resolved (orders : List StoredOrder) (answers : List ExchangeAnswer)
    (old new : StoredOrder) : Prop where
  evidence : old.status = .unknown → new.status ≠ .unknown →
    ∃ answer ∈ answers, ∃ snapshot ∈ answer.snapshots, Matches old snapshot
  failed : .openOrdersFailed old.symbol ∈ answers → ListsSound orders answers →
    new.status = old.status

variable (env : Env) {s : Sys}

/-- After a failed read of its symbol there is no evidence about an order. -/
theorem no_evidence {orders : List StoredOrder} {answers : List ExchangeAnswer}
    {old : StoredOrder} (hold : old ∈ orders) (hsettled : Settled answers)
    (hfailed : .openOrdersFailed old.symbol ∈ answers) (hsound : ListsSound orders answers) :
    ¬ StatusEvidence old answers := by
  rintro (⟨answer, hanswer, snapshot, hsnapshot, hmatch⟩ | ⟨-, snapshots, hopened⟩)
  · have hsymbol : answer.symbol = old.symbol := by
      rw [← hsound.own answer hanswer snapshot hsnapshot]
      exact (hsound.unique answer hanswer snapshot hsnapshot old hold hmatch).symm
    rw [hsettled old.symbol hfailed answer hanswer hsymbol] at hsnapshot
    cases hsnapshot
  · have hsame := hsettled old.symbol hfailed _ hopened rfl
    cases hsame

/-- One refresh, whichever way it ends. -/
theorem refresh_resolves (hunique : UniqueIds s.orders) (config : Config) (symbols : List String)
    (skipNonEssential : Bool) :
    let t := stepRefresh env s (.refresh config symbols skipNonEssential)
    UniqueIds t.orders ∧ ∃ answers, t.answers = s.answers ++ answers ∧
      ∀ (place : ℕ) (old : StoredOrder), s.orders[place]? = some old →
        ∃ new, t.orders[place]? = some new ∧ Resolved s.orders answers old new := by
  intro t
  let w : Watch := ⟨s.orders, hunique, s.answers.length⟩
  have hwatched : Watched w t := by
    refine stateAfter_of_triple (P := fun u => u = s) (fun u hu => ?_) rfl
    subst hu
    have hprogram : Triple (fun u => u.orders = w.orders ∧ u.answers.length = w.earlier) _
        (fun _ => Watched w) (fun _ => Watched w) :=
      refreshOrderLifecycle_watched env config symbols skipNonEssential
    have hend : Triple (Watched w) (pure () : ExecM Unit) (fun _ => Watched w) (fun _ => Watched w) :=
      Triple.pure fun _ hs => hs
    exact (Triple.bind (Q := fun _ u => u.orders = w.orders ∧ u.answers.length = w.earlier)
      (Triple.modify fun _ hs => hs) fun _ => hprogram.bind fun _ => hend) u ⟨rfl, rfl⟩
  obtain ⟨answers, hanswers, hsettled⟩ : ∃ added, t.answers = s.answers ++ added ∧
      Settled added := by
    refine stateAfter_of_triple (P := fun u => u.answers = s.answers)
      (I := fun u => ∃ added, u.answers = s.answers ++ added ∧ Settled added) ?_ rfl
    exact Triple.bind (Q := fun _ u => u.answers = s.answers) (Triple.modify fun _ hs => hs)
      fun _ => (refreshOrderLifecycle_settled env config symbols skipNonEssential).bind fun _ =>
        Triple.pure fun _ hs => hs
  have hsince : w.answers t = answers := by
    unfold Watch.answers
    rw [hanswers]
    exact List.drop_left
  refine ⟨hwatched.unique, answers, hanswers, fun place old hold => ?_⟩
  have hplace : place < t.orders.length :=
    (List.getElem?_eq_some_iff.mp hold).1.trans_le hwatched.present
  refine ⟨t.orders[place], List.getElem?_eq_getElem hplace, ?_⟩
  have hkept := hwatched.kept place old hold
  rw [hsince] at hkept
  have hstatus (hno : ¬ StatusEvidence old answers) : t.orders[place].status = old.status := by
    obtain ⟨row, hrow, -, -, hsame⟩ := hkept.resolve_left hno
    rw [List.getElem?_eq_getElem hplace] at hrow
    exact Option.some.inj hrow ▸ hsame
  refine ⟨fun hunknown hleft => ?_, fun hfailed hsound => ?_⟩
  · by_contra hnone
    refine hleft ((hstatus fun hevidence => ?_).trans hunknown)
    rcases hevidence with hmatched | ⟨hknown, -⟩
    · exact hnone hmatched
    · exact hknown hunknown
  · exact hstatus (no_evidence (List.mem_of_getElem? hold) hsettled hfailed hsound)

theorem unique_stepRefresh (hunique : UniqueIds s.orders) (input : RefreshInput) :
    UniqueIds (stepRefresh env s input).orders := by
  cases input with
  | refresh config symbols skipNonEssential =>
    exact (refresh_resolves env hunique config symbols skipNonEssential).1
  | restart config => exact hunique

/-- Along every run of refreshes and restarts, a refresh keeps each order in its place. An unknown
order leaves that status only with a snapshot of it among the refresh's answers, and no order
changes its status in a refresh whose read of the open orders of its symbol failed. -/
theorem unknown_resolved_by_evidence (env : Env) (s : Sys) (hunique : UniqueIds s.orders)
    (inputs : List RefreshInput) :
    ∀ before config symbols skipNonEssential after,
      inputs = before ++ .refresh config symbols skipNonEssential :: after →
      let start := Runs.run (stepRefresh env) s before
      let finish := stepRefresh env start (.refresh config symbols skipNonEssential)
      ∃ answers, finish.answers = start.answers ++ answers ∧
        ∀ (place : ℕ) (old : StoredOrder), start.orders[place]? = some old →
          ∃ new, finish.orders[place]? = some new ∧
            (old.status = .unknown → new.status ≠ .unknown →
              ∃ answer ∈ answers, ∃ snapshot ∈ answer.snapshots, Matches old snapshot) ∧
            (.openOrdersFailed old.symbol ∈ answers → ListsSound start.orders answers →
              new.status = old.status) := by
  intro before config symbols skipNonEssential after _ start finish
  have hstart : UniqueIds start.orders :=
    Runs.run_keeps (I := fun s : Sys => UniqueIds s.orders)
      (fun s input hs => unique_stepRefresh env hs input) s before hunique
  obtain ⟨-, answers, hanswers, hall⟩ :=
    refresh_resolves env hstart config symbols skipNonEssential
  refine ⟨answers, hanswers, fun place old hold => ?_⟩
  obtain ⟨new, hnew, hresolved⟩ := hall place old hold
  exact ⟨new, hnew, hresolved.evidence, hresolved.failed⟩

/-- An order of which the exchange has not told yet. -/
def unknownOrder : StoredOrder where
  orderId := "unknown:c-1"
  symbol := "BTCTRY"
  clientOrderId := some "c-1"
  side := .buy
  price := 100
  quantity := 1
  status := .unknown
  createdAt := 0
  updatedAt := 0
  lastSeenAt := none
  reconciled := false
  exchangeStatusRaw := none
  idempotencyKey := none
  intentId := none

def unreadableEnv : Env := { quietEnv with
  getOpenOrders := fun _ _ => .error (.runtimeError "no answer") }

theorem unknown_resolved_by_evidence_failed :
    ∃ new, (stepRefresh unreadableEnv { orders := [unknownOrder] }
      (.refresh sampleConfig ["BTCTRY"] false)).orders[0]? = some new ∧ new.status = .unknown := by
  obtain ⟨answers, hanswers, hall⟩ := unknown_resolved_by_evidence unreadableEnv
    { orders := [unknownOrder] } (List.nodup_singleton _)
    [.refresh sampleConfig ["BTCTRY"] false] [] sampleConfig ["BTCTRY"] false [] rfl
  have hfailed : answers = [.openOrdersFailed "BTCTRY"] :=
    hanswers.symm.trans (by decide +kernel)
  obtain ⟨new, hnew, -, hsame⟩ := hall 0 unknownOrder rfl
  refine ⟨new, hnew, hsame ?_ ⟨fun answer hin => ?_, fun answer hin => ?_⟩⟩
  · rw [hfailed]
    exact List.mem_singleton_self _
  all_goals
    rw [hfailed] at hin
    rw [List.mem_singleton.mp hin]
    exact List.forall_mem_nil _

/-- The open order of the client order id takes over the place of the unknown one. -/
example : (stepRefresh { quietEnv with getOpenOrders := fun _ _ => .ok [
      { id := 7, price := 100, quantity := 1, pairSymbol := "BTCTRY", method := "buy", time := 0
        updateTime := none, orderClientId := some "c-1", status := "Untouched" }] }
    { orders := [unknownOrder] } (.refresh sampleConfig ["BTCTRY"] false)).orders.map
      (fun row => (row.orderId, row.status)) = [("7", .open)] := by decide +kernel

end Runs

end Stage3Service
