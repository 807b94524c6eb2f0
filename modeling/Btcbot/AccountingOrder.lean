import Btcbot.AccountingLedger
import Btcbot.Runs

/-!
# Order, duplicates and cash of the accounting ledger

Of an event a replay reads no more than the sort key and the event id fix, so
the representative of an event id, and with it the replay, does not depend on
the order of the list. Cash moves by the flow of each event and nothing else.
-/
namespace AccountingLedger

open PyData Money DecimalText Grid
open Capital (quantizeMoney MoneyGrid quantizeMoney_grid quantizeMoney_of_grid)

section Normal

@[simp] theorem orZero_orZero (value : Option PrintedDecimal) :
    orZero (some (orZero value)) = orZero value := by
  cases value with
  | none => rfl
  | some d =>
    by_cases h : d.value = 0
    · simp [orZero, h, PrintedDecimal.zero]
    · simp [orZero, h]

/-- The event as far as a replay reads it. -/
def AccountingLedgerEvent.normal (event : AccountingLedgerEvent) : AccountingLedgerEvent where
  eventId := event.eventId
  ts := event.canonicalTs
  type := event.type
  symbol := some (event.symbol.getD "")
  side := some (event.side.getD "")
  qty := event.qty
  priceTry := some (orZero event.priceTry)
  amountTry := some (orZero event.amountTry)
  feeCurrency := none

variable (event : AccountingLedgerEvent)

@[simp] theorem normal_canonicalTs : event.normal.canonicalTs = event.canonicalTs := rfl

@[simp] theorem normal_order : event.normal.order = event.order := rfl

@[simp] theorem normal_symbolName : event.normal.symbolName = event.symbolName := rfl

@[simp] theorem normal_sideName : event.normal.sideName = event.sideName := rfl

@[simp] theorem normal_fillQty : event.normal.fillQty = event.fillQty := rfl

@[simp] theorem normal_price : event.normal.price = event.price := by
  simp [AccountingLedgerEvent.normal, AccountingLedgerEvent.price]

@[simp] theorem normal_amount : event.normal.amount = event.amount := by
  simp [AccountingLedgerEvent.normal, AccountingLedgerEvent.amount]

@[simp] theorem normal_notionalTry : event.normal.notionalTry = event.notionalTry := by
  simp [AccountingLedgerEvent.notionalTry]

theorem applyFill_normal (books : Books) : applyFill event.normal books = applyFill event books := by
  have hid : event.normal.eventId = event.eventId := rfl
  simp only [applyFill, normal_sideName, normal_fillQty, normal_price, normal_notionalTry,
    normal_canonicalTs, normal_symbolName, hid]

theorem bookEvent_normal (books : Books) : bookEvent event.normal books = bookEvent event books := by
  have htype : event.normal.type = event.type := rfl
  simp only [bookEvent, htype, applyFill_normal, normal_symbolName, normal_amount]

theorem applyEvent_normal (replay : Replay) :
    applyEvent replay event.normal = applyEvent replay event := by
  unfold applyEvent
  rw [bookEvent_normal]
  rfl

theorem value_injective : Function.Injective AccountingEventType.value := by
  intro a b h
  cases a <;> cases b <;> simp [AccountingEventType.value] at h ⊢

/-- The sort key and the event id fix all a replay reads. -/
theorem normal_eq_of_sortKey {a b : AccountingLedgerEvent} (hid : a.eventId = b.eventId)
    (h : sortKey a = sortKey b) : a.normal = b.normal := by
  simp only [sortKey, EmbeddingLike.apply_eq_iff_eq, Prod.mk.injEq, List.cons.injEq, and_true]
    at h
  obtain ⟨hts, ⟨htype, hsymbol, hside, hqty, hprice, hamount, -, -⟩, -⟩ := h
  have hdate : a.canonicalTs = b.canonicalTs := by
    simpa [AccountingLedgerEvent.canonicalTs, ensureUtc] using hts
  simp only [AccountingLedgerEvent.normal, hid, hdate, value_injective htype, hsymbol, hside,
    PrintedDecimal.eq_of_text hqty, PrintedDecimal.eq_of_text hprice,
    PrintedDecimal.eq_of_text hamount]

end Normal

section Order

variable {events more : List AccountingLedgerEvent}

theorem distinctEvents_normal (hsame : ∀ event, event ∈ more ↔ event ∈ events) (asOf : DateTime) :
    (distinctEvents more asOf).map AccountingLedgerEvent.normal =
      (distinctEvents events asOf).map AccountingLedgerEvent.normal := by
  have hvalues := Representative.ofList_map_eq AccountingLedgerEvent.eventId sortKey hsame
    fun a b hid hkey => normal_eq_of_sortKey hid hkey
  have hfilter (l : List AccountingLedgerEvent) :
      (l.filter fun event => decide (event.canonicalTs.micros ≤ (ensureUtc asOf).micros)).map
          AccountingLedgerEvent.normal =
        (l.map AccountingLedgerEvent.normal).filter fun event =>
          decide (event.canonicalTs.micros ≤ (ensureUtc asOf).micros) := by
    rw [List.filter_map]
    rfl
  rw [distinctEvents, distinctEvents, hfilter, hfilter, dedupeEvents, dedupeEvents, hvalues]

theorem orderedEvents_normal (hsame : ∀ event, event ∈ more ↔ event ∈ events) (asOf : DateTime) :
    (orderedEvents more asOf).map AccountingLedgerEvent.normal =
      (orderedEvents events asOf).map AccountingLedgerEvent.normal := by
  have hsort (l : List AccountingLedgerEvent) :
      (l.insertionSort SortsBefore).map AccountingLedgerEvent.normal =
        (l.map AccountingLedgerEvent.normal).insertionSort SortsBefore :=
    List.map_insertionSort SortsBefore SortsBefore _ l fun _ _ _ _ => Iff.rfl
  rw [orderedEvents, orderedEvents, hsort, hsort, distinctEvents_normal hsame]

theorem foldlM_normal (l : List AccountingLedgerEvent) (replay : Replay) :
    (l.map AccountingLedgerEvent.normal).foldlM applyEvent replay = l.foldlM applyEvent replay := by
  rw [List.foldlM_map]
  simp only [applyEvent_normal]

/-- Only which events there are matters, not how often or in which order they are listed. -/
theorem recompute_congr (hsame : ∀ event, event ∈ more ↔ event ∈ events) (args : RecomputeArgs) :
    recompute more args = recompute events args := by
  rw [recompute, recompute, ← foldlM_normal, orderedEvents_normal hsame, foldlM_normal]

end Order

section Cash

/-- What the side of a fill brings in. -/
def AccountingLedgerEvent.proceeds (event : AccountingLedgerEvent) : ℚ :=
  if event.sideName = "BUY" then -event.notionalTry
  else if event.sideName = "SELL" then event.notionalTry
  else 0

/-- The cash an event brings in; a fill that names no symbol brings none. -/
def cashFlow (event : AccountingLedgerEvent) : ℚ :=
  match event.type with
  | .fillRecorded => if event.symbolName = "" then 0 else event.proceeds
  | .feeRecorded | .fundingCostRecorded | .withdrawal => -quantizeMoney |event.amount|
  | .transfer => quantizeMoney event.amount
  | .slippageRecorded | .rebalance => 0

/-- What an event moves from the cash to the treasury. -/
def rebalanced (event : AccountingLedgerEvent) : ℚ :=
  match event.type with
  | .rebalance => quantizeMoney event.amount
  | _ => 0

/-- Cash and treasury are whole quote units, and the events moved them exactly. -/
structure CashMoved (start : Replay) (flow moved cash treasury : ℚ) : Prop where
  cashGrid : MoneyGrid cash
  treasuryGrid : MoneyGrid treasury
  cash_eq : cash = start.tryBalance + flow - moved
  treasury_eq : treasury = start.treasuryTry + moved

variable {start : Replay} {flow moved cash treasury : ℚ}

theorem CashMoved.move (h : CashMoved start flow moved cash treasury) {amount : ℚ}
    (hamount : MoneyGrid amount) :
    CashMoved start (flow + amount) moved (quantizeMoney (cash + amount)) treasury := by
  have hgrid : MoneyGrid (cash + amount) := h.cashGrid.add hamount
  have hcash := h.cash_eq
  refine ⟨quantizeMoney_grid _, h.treasuryGrid, ?_, h.treasury_eq⟩
  rw [quantizeMoney_of_grid hgrid]
  linarith

theorem CashMoved.shift (h : CashMoved start flow moved cash treasury) {amount : ℚ}
    (hamount : MoneyGrid amount) :
    CashMoved start flow (moved + amount) (quantizeMoney (cash - amount))
      (quantizeMoney (treasury + amount)) := by
  have hcash := h.cash_eq
  have htreasury := h.treasury_eq
  refine ⟨quantizeMoney_grid _, quantizeMoney_grid _, ?_, ?_⟩
  · rw [quantizeMoney_of_grid (h.cashGrid.sub hamount)]
    linarith
  · rw [quantizeMoney_of_grid (h.treasuryGrid.add hamount)]
    linarith

variable {event : AccountingLedgerEvent} {books next : Books}

theorem CashMoved.applyFill (h : CashMoved start flow moved books.tryBalance books.treasuryTry)
    (hfill : applyFill event books = .ok next) :
    CashMoved start (flow + event.proceeds) moved next.tryBalance next.treasuryTry := by
  have hnotional : MoneyGrid event.notionalTry := quantizeMoney_grid _
  unfold AccountingLedgerEvent.proceeds
  unfold AccountingLedger.applyFill at hfill
  by_cases hbuy : event.sideName = "BUY"
  · rw [if_pos hbuy] at hfill ⊢
    obtain rfl := Except.ok.inj hfill
    simpa [sub_eq_add_neg] using h.move (OnGrid.neg hnotional)
  · rw [if_neg hbuy] at hfill ⊢
    by_cases hsell : event.sideName = "SELL"
    · rw [if_pos hsell] at hfill ⊢
      simp only at hfill
      split at hfill
      · cases hfill
      · obtain rfl := Except.ok.inj hfill
        exact h.move hnotional
    · rw [if_neg hsell] at hfill ⊢
      obtain rfl := Except.ok.inj hfill
      simpa using h

theorem CashMoved.bookEvent (h : CashMoved start flow moved books.tryBalance books.treasuryTry)
    (hbook : bookEvent event books = .ok next) :
    CashMoved start (flow + cashFlow event) (moved + rebalanced event) next.tryBalance
      next.treasuryTry := by
  have hout : MoneyGrid (-quantizeMoney |event.amount|) := OnGrid.neg (quantizeMoney_grid _)
  unfold AccountingLedger.bookEvent at hbook
  cases htype : event.type with
  | fillRecorded =>
    simp only [htype] at hbook
    by_cases hsymbol : event.symbolName = ""
    · rw [if_pos hsymbol] at hbook
      obtain rfl := Except.ok.inj hbook
      simpa [cashFlow, rebalanced, htype, hsymbol] using h
    · rw [if_neg hsymbol] at hbook
      have hfill := h.applyFill hbook
      simpa [cashFlow, rebalanced, htype, hsymbol] using hfill
  | feeRecorded =>
    simp only [htype] at hbook
    obtain rfl := Except.ok.inj hbook
    simpa [cashFlow, rebalanced, htype, sub_eq_add_neg] using h.move hout
  | fundingCostRecorded =>
    simp only [htype] at hbook
    obtain rfl := Except.ok.inj hbook
    simpa [cashFlow, rebalanced, htype, sub_eq_add_neg] using h.move hout
  | withdrawal =>
    simp only [htype] at hbook
    obtain rfl := Except.ok.inj hbook
    simpa [cashFlow, rebalanced, htype, sub_eq_add_neg] using h.move hout
  | slippageRecorded =>
    simp only [htype] at hbook
    obtain rfl := Except.ok.inj hbook
    simpa [cashFlow, rebalanced, htype] using h
  | transfer =>
    simp only [htype] at hbook
    obtain rfl := Except.ok.inj hbook
    simpa [cashFlow, rebalanced, htype] using h.move (quantizeMoney_grid event.amount)
  | rebalance =>
    simp only [htype] at hbook
    obtain rfl := Except.ok.inj hbook
    simpa [cashFlow, rebalanced, htype] using h.shift (quantizeMoney_grid event.amount)

/-- An applied event is a booked one whose state the symbol keeps. -/
theorem applyEvent_ok {replay final : Replay} (h : applyEvent replay event = .ok final) :
    ∃ books, bookEvent event
        ⟨replay.state event.symbolName, replay.tryBalance, replay.treasuryTry⟩ = .ok books ∧
      final.tryBalance = books.tryBalance ∧ final.treasuryTry = books.treasuryTry ∧
      final.symbolState = if event.symbolName = "" then replay.symbolState
        else replay.symbolState.insert event.symbolName books.state.quantized := by
  unfold applyEvent at h
  cases hbook : AccountingLedger.bookEvent event
      ⟨replay.state event.symbolName, replay.tryBalance, replay.treasuryTry⟩ with
  | error e =>
    rw [hbook] at h
    cases h
  | ok books =>
    rw [hbook] at h
    obtain rfl := Except.ok.inj h
    exact ⟨books, rfl, rfl, rfl, rfl⟩

theorem CashMoved.replay {final : Replay} (hcash : MoneyGrid start.tryBalance)
    (htreasury : MoneyGrid start.treasuryTry) (events : List AccountingLedgerEvent)
    (h : events.foldlM applyEvent start = .ok final) :
    CashMoved start (events.map cashFlow).sum (events.map rebalanced).sum final.tryBalance
      final.treasuryTry := by
  refine Runs.foldlM_ok_induct
    (I := fun taken replay => CashMoved start (taken.map cashFlow).sum
      (taken.map rebalanced).sum replay.tryBalance replay.treasuryTry) ?_ events ?_ h
  · intro taken event replay next hmoved hevent
    obtain ⟨books, hbook, hbalance, htreasury, -⟩ := applyEvent_ok hevent
    have hnext := CashMoved.bookEvent hmoved hbook
    simpa [hbalance, htreasury] using hnext
  · exact ⟨hcash, htreasury, by simp, by simp⟩

theorem orderedEvents_sum (events : List AccountingLedgerEvent) (asOf : DateTime)
    (f : AccountingLedgerEvent → ℚ) :
    ((orderedEvents events asOf).map f).sum = ((distinctEvents events asOf).map f).sum :=
  ((List.perm_insertionSort SortsBefore (distinctEvents events asOf)).map f).sum_eq

theorem recompute_ok {events : List AccountingLedgerEvent} {args : RecomputeArgs}
    {state : PortfolioAccountingState} (h : recompute events args = .ok state) :
    ∃ replay, (orderedEvents events args.asOf).foldlM applyEvent args.start = .ok replay ∧
      state = report args.asOf args.markPricesTry replay := by
  unfold recompute at h
  cases hrun : (orderedEvents events args.asOf).foldlM applyEvent args.start with
  | error e =>
    rw [hrun] at h
    cases h
  | ok replay =>
    rw [hrun] at h
    exact ⟨replay, rfl, (Except.ok.inj h).symm⟩

/-- Cash and treasury of a recompute are what the events moved. -/
theorem recompute_cash {events : List AccountingLedgerEvent} {args : RecomputeArgs}
    {state : PortfolioAccountingState} (h : recompute events args = .ok state) :
    CashMoved args.start ((distinctEvents events args.asOf).map cashFlow).sum
      ((distinctEvents events args.asOf).map rebalanced).sum state.tradingCapitalTry
      state.treasuryTry := by
  obtain ⟨replay, hrun, rfl⟩ := recompute_ok h
  have hmoved := CashMoved.replay (quantizeMoney_grid _) (quantizeMoney_grid _) _ hrun
  rw [orderedEvents_sum, orderedEvents_sum] at hmoved
  have hcapital : quantizeMoney replay.tryBalance = replay.tryBalance :=
    quantizeMoney_of_grid hmoved.cashGrid
  simpa [report, hcapital] using hmoved

/-- Order and repetitions change no recompute, and the distinct events account for all cash. -/
theorem recompute_order_and_cash {events more : List AccountingLedgerEvent}
    (hsame : ∀ event, event ∈ more ↔ event ∈ events) (args : RecomputeArgs) :
    recompute more args = recompute events args ∧
      ∀ state, recompute events args = .ok state →
        state.tradingCapitalTry + state.treasuryTry =
            quantizeMoney args.initialTradingCapitalTry + quantizeMoney args.initialTreasuryTry +
              ((distinctEvents events args.asOf).map cashFlow).sum ∧
          state.treasuryTry = quantizeMoney args.initialTreasuryTry +
            ((distinctEvents events args.asOf).map rebalanced).sum := by
  refine ⟨recompute_congr hsame args, fun state h => ?_⟩
  have hmoved := recompute_cash h
  have hcash := hmoved.cash_eq
  have htreasury := hmoved.treasury_eq
  simp only [RecomputeArgs.start] at hcash htreasury
  exact ⟨by linarith, htreasury⟩

def deposit : AccountingLedgerEvent where
  eventId := "deposit"
  ts := ⟨0, true⟩
  type := .transfer
  symbol := none
  side := none
  qty := .zero
  priceTry := none
  amountTry := some ⟨500, "500", by decide +kernel⟩
  feeCurrency := some "TRY"

def oneLot : PrintedDecimal := ⟨1, "1", by decide +kernel⟩

def hundred : PrintedDecimal := ⟨100, "100", by decide +kernel⟩

def lotBought : AccountingLedgerEvent where
  eventId := "bought"
  ts := ⟨1, true⟩
  type := .fillRecorded
  symbol := some "BTCTRY"
  side := some "BUY"
  qty := oneLot
  priceTry := some hundred
  amountTry := none
  feeCurrency := none

theorem deposit_and_purchase_in_any_order :
    recompute [lotBought, deposit, lotBought] ⟨⟨5, true⟩, ∅, 1000, 0⟩ =
        recompute [deposit, lotBought] ⟨⟨5, true⟩, ∅, 1000, 0⟩ ∧
      ∀ state, recompute [deposit, lotBought] ⟨⟨5, true⟩, ∅, 1000, 0⟩ = .ok state →
        state.tradingCapitalTry + state.treasuryTry =
            quantizeMoney 1000 + quantizeMoney 0 +
              ((distinctEvents [deposit, lotBought] ⟨5, true⟩).map cashFlow).sum ∧
          state.treasuryTry = quantizeMoney 0 +
            ((distinctEvents [deposit, lotBought] ⟨5, true⟩).map rebalanced).sum :=
  @recompute_order_and_cash [deposit, lotBought] [lotBought, deposit, lotBought]
    (by intro event; simp; tauto) ⟨⟨5, true⟩, ∅, 1000, 0⟩

/-- The purchase as a venue might report it without its symbol. -/
def namelessPurchase : AccountingLedgerEvent := { lotBought with symbol := none }

theorem nameless_purchase_keeps_cash :
    namelessPurchase.proceeds = -100 ∧
      ∃ state, recompute [namelessPurchase] ⟨⟨5, true⟩, ∅, 1000, 0⟩ = .ok state ∧
        state.tradingCapitalTry + state.treasuryTry ≠
          quantizeMoney 1000 + quantizeMoney 0 +
            ((distinctEvents [namelessPurchase] ⟨5, true⟩).map
              AccountingLedgerEvent.proceeds).sum := by
  refine ⟨by decide +kernel, ?_⟩
  have hrun : (recompute [namelessPurchase] ⟨⟨5, true⟩, ∅, 1000, 0⟩).toOption.map
      (fun state => state.tradingCapitalTry + state.treasuryTry) = some 1000 := by decide +kernel
  have hflow : ((distinctEvents [namelessPurchase] ⟨5, true⟩).map
      AccountingLedgerEvent.proceeds).sum = -100 := by decide +kernel
  cases hstate : recompute [namelessPurchase] ⟨⟨5, true⟩, ∅, 1000, 0⟩ with
  | error e =>
    rw [hstate] at hrun
    cases hrun
  | ok state =>
    rw [hstate] at hrun
    have htotal : state.tradingCapitalTry + state.treasuryTry = 1000 := Option.some.inj hrun
    refine ⟨state, rfl, ?_⟩
    rw [htotal, hflow]
    decide +kernel

end Cash

end AccountingLedger
