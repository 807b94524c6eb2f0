import Btcbot.Effects
import Btcbot.Runs
import Btcbot.Stage3Execute
import Btcbot.Stage4Accounting

/-!
# Stage 3 positions and their fills

A refresh saves each fill of an answer and then writes the position it changes, in
two writes; a fill saved before is not applied again. The process may stop at any
write. A sale takes no more than is held.
-/
namespace Stage3Accounting

open PyData Effects ExchangeErrors
open Stage4Accounting (OrderSide TradeFill)
open Stage3Service (splitSymbol)

section Store

structure Position where
  symbol : String
  qty : ℚ
  avgCost : ℚ
  realizedPnl : ℚ
  unrealizedPnl : ℚ
  feesPaid : ℚ
  updatedAt : DateTime
  deriving DecidableEq, Repr

/-- Fills as saved, and positions by symbol. -/
structure Store where
  fills : List TradeFill := []
  positions : Dict Position := ∅

/-- A fill without an id meets no other one. -/
def knownFill (store : Store) (fill : TradeFill) : Bool :=
  fill.fillId.isSome && store.fills.any fun saved => saved.fillId = fill.fillId

def saveFill (fill : TradeFill) (store : Store) : Bool × Store :=
  if knownFill store fill then (false, store)
  else (true, { store with
    fills := store.fills ++ [{ fill with symbol := normalizeSymbol fill.symbol }] })

def savePosition (position : Position) (store : Store) : Unit × Store :=
  ((), { store with positions := store.positions.insert (normalizeSymbol position.symbol) position })

def getPosition (store : Store) (symbol : String) : Option Position :=
  store.positions[normalizeSymbol symbol]?.map fun position =>
    { position with symbol := normalizeSymbol symbol }

/-- In the order of the symbols. -/
def getPositions (store : Store) : List Position :=
  store.positions.toList.map fun entry => { entry.2 with symbol := entry.1 }

end Store

section Refresh

inductive Halt where
  /-- The process is gone. -/
  | stopped
  | raised (exc : Exc)
  deriving DecidableEq

/-- The store, and the writes to it before the process stops, if it does. -/
structure Process where
  store : Store
  writesLeft : Option ℕ

abbrev Proc := EStateM Halt Process

def write {α : Type} (f : Store → α × Store) : Proc α := do
  let process ← get
  if process.writesLeft = some 0 then throw .stopped
  else
    set (Process.mk (f process.store).2 (process.writesLeft.map (· - 1)))
    pure (f process.store).1

/-- What follows the first underscore, or the ending the symbol is known by. -/
def quoteCurrency (symbol : String) : Except Exc String :=
  if '_' ∈ symbol.toList then
    .ok (String.ofList ((symbol.toList.dropWhile (· ≠ '_')).drop 1)).toUpper
  else (splitSymbol symbol).map Prod.snd

def newPosition (symbol : String) (now : DateTime) : Position := ⟨symbol, 0, 0, 0, 0, 0, now⟩

def buyPosition (position : Position) (fill : TradeFill) (feeQuote : ℚ) : Position :=
  let totalCost := position.qty * position.avgCost + fill.qty.value * fill.price.value + feeQuote
  let newQty := position.qty + fill.qty.value
  { position with
    avgCost := if 0 < newQty then totalCost / newQty else 0
    qty := newQty
    feesPaid := position.feesPaid + feeQuote
    updatedAt := fill.ts }

def sellPosition (position : Position) (fill : TradeFill) (feeQuote : ℚ) : Position :=
  let sellQty := min position.qty fill.qty.value
  let feeUsed := if 0 < fill.qty.value then feeQuote * (sellQty / fill.qty.value) else 0
  let left := position.qty - sellQty
  { position with
    realizedPnl := position.realizedPnl +
      (sellQty * (fill.price.value - position.avgCost) - feeUsed)
    qty := if left ≤ 0 then 0 else left
    avgCost := if left ≤ 0 then 0 else position.avgCost
    feesPaid := position.feesPaid + feeUsed
    updatedAt := fill.ts }

def filledPosition (position : Position) (fill : TradeFill) (quote : String) : Position :=
  let feeQuote := if fill.feeCurrency.toUpper = quote then fill.fee else 0
  match fill.side with
  | .buy => buyPosition position fill feeQuote
  | .sell => sellPosition position fill feeQuote

def applyFill (now : DateTime) (fill : TradeFill) : Proc Unit := do
  let process ← get
  let symbol := normalizeSymbol fill.symbol
  let position := (getPosition process.store symbol).getD (newPosition symbol now)
  match quoteCurrency fill.symbol with
  | .error exc => throw (.raised exc)
  | .ok quote => write (savePosition (filledPosition position fill quote))

def refreshFill (now : DateTime) (inserted : ℕ) (fill : TradeFill) : Proc ℕ := do
  if ← write (saveFill fill) then
    applyFill now fill
    pure (inserted + 1)
  else pure inserted

/-- An answer for a symbol, or what the call raised. -/
abbrev Read := String × Except Exc (List TradeFill)

def refreshSymbol (now : DateTime) (inserted : ℕ) (read : Read) : Proc ℕ :=
  match read.2 with
  | .error exc => throw (.raised exc)
  | .ok fills => fills.foldlM (refreshFill now) inserted

def markedPosition (markPrices : Dict ℚ) (now : DateTime) (position : Position) : Position :=
  let mark := markPrices.getD (normalizeSymbol position.symbol) 0
  { position with
    unrealizedPnl := if 0 < mark then (mark - position.avgCost) * position.qty else 0
    updatedAt := now }

def markPosition (markPrices : Dict ℚ) (now : DateTime) (_ : Unit) (position : Position) :
    Proc Unit := write (savePosition (markedPosition markPrices now position))

/-- A call of refresh: the answers of its symbols in order, the marks, and the writes the process
lives for. -/
structure RefreshCall where
  reads : List Read
  markPrices : Dict ℚ
  now : DateTime
  writes : Option ℕ := none

def refresh (call : RefreshCall) : Proc ℕ := do
  let inserted ← call.reads.foldlM (refreshSymbol call.now) 0
  let process ← get
  (getPositions process.store).foldlM (markPosition call.markPrices call.now) ()
  pure inserted

/-- The store a call leaves, however it ends. -/
def storeAfter (store : Store) (call : RefreshCall) : Store :=
  match refresh call ⟨store, call.writes⟩ with
  | .ok _ process => process.store
  | .error _ process => process.store

end Refresh

section Conserved

def heldQty (store : Store) (symbol : String) : ℚ :=
  (store.positions[symbol]?.map Position.qty).getD 0

def signedQty (fill : TradeFill) : ℚ :=
  match fill.side with
  | .buy => fill.qty.value
  | .sell => -fill.qty.value

/-- What the saved fills of a symbol bought less what they sold. -/
def netQty (store : Store) (symbol : String) : ℚ :=
  ((store.fills.filter fun fill => fill.symbol = symbol).map signedQty).sum

/-- Every position holds what the saved fills come to. -/
structure Conserved (store : Store) : Prop where
  qty : ∀ symbol, heldQty store symbol = netQty store symbol
  normal : ∀ symbol, (store.positions[symbol]?).isSome → normalizeSymbol symbol = symbol

theorem Conserved.empty : Conserved {} where
  qty symbol := by simp [heldQty, netQty]
  normal symbol h := by simp at h

/-- A new fill of a store is bought or no more than is held, and its symbol has a quote. -/
def Bookable (store : Store) (fill : TradeFill) : Prop :=
  (∃ quote, quoteCurrency fill.symbol = .ok quote) ∧
    (fill.side = .sell → fill.qty.value ≤ heldQty store (normalizeSymbol fill.symbol))

theorem filledPosition_symbol (position : Position) (fill : TradeFill) (quote : String) :
    (filledPosition position fill quote).symbol = position.symbol := by
  unfold filledPosition
  cases fill.side <;> rfl

theorem filledPosition_qty (position : Position) {fill : TradeFill} (quote : String)
    (h : fill.side = .sell → fill.qty.value ≤ position.qty) :
    (filledPosition position fill quote).qty = position.qty + signedQty fill := by
  unfold filledPosition signedQty
  cases hside : fill.side with
  | buy => rfl
  | sell =>
    have hle := h hside
    simp only [sellPosition, min_eq_right hle]
    split
    · linarith
    · ring

theorem getPosition_held (store : Store) (symbol : String) (now : DateTime) :
    ((getPosition store symbol).getD (newPosition (normalizeSymbol symbol) now)).qty =
        heldQty store (normalizeSymbol symbol) ∧
      ((getPosition store symbol).getD (newPosition (normalizeSymbol symbol) now)).symbol =
        normalizeSymbol symbol := by
  unfold getPosition heldQty
  cases store.positions[normalizeSymbol symbol]? <;> exact ⟨rfl, rfl⟩

/-- A fill booked in both writes. -/
theorem Conserved.fill {store : Store} (h : Conserved store) {fill : TradeFill} {quote : String}
    {position : Position} (hnew : knownFill store fill = false)
    (hsymbol : position.symbol = normalizeSymbol fill.symbol)
    (hqty : position.qty = heldQty store (normalizeSymbol fill.symbol))
    (hsell : fill.side = .sell → fill.qty.value ≤ heldQty store (normalizeSymbol fill.symbol)) :
    Conserved (savePosition (filledPosition position fill quote) (saveFill fill store).2).2 := by
  have hfilled := filledPosition_qty position quote (hqty ▸ hsell)
  have hkey : normalizeSymbol (filledPosition position fill quote).symbol =
      normalizeSymbol fill.symbol := by
    rw [filledPosition_symbol, hsymbol, normalizeSymbol_idem]
  have hsave : (saveFill fill store).2 = { store with
      fills := store.fills ++ [{ fill with symbol := normalizeSymbol fill.symbol }] } := by
    simp [saveFill, hnew]
  constructor
  · intro symbol
    have hold := h.qty symbol
    simp only [heldQty, netQty] at hold hqty
    simp only [savePosition, hsave, heldQty, netQty, hkey, Dict.insert_get, List.filter_append,
      List.map_append, List.sum_append]
    by_cases hsame : normalizeSymbol fill.symbol = symbol
    · subst hsame
      simp [hfilled, hqty, hold, signedQty]
    · simp [hsame, hold]
  · intro symbol hsome
    simp only [savePosition, hsave, hkey, Dict.insert_get] at hsome
    by_cases hsame : normalizeSymbol fill.symbol = symbol
    · rw [← hsame, normalizeSymbol_idem]
    · rw [if_neg hsame] at hsome
      exact h.normal symbol hsome

/-- Writing a position again with its quantity. -/
theorem Conserved.again {store : Store} (h : Conserved store) {position : Position}
    (hsymbol : normalizeSymbol position.symbol = position.symbol)
    (hqty : position.qty = heldQty store position.symbol) :
    Conserved (savePosition position store).2 := by
  constructor
  · intro symbol
    have hold := h.qty symbol
    simp only [savePosition, heldQty, netQty, hsymbol, Dict.insert_get] at hold hqty ⊢
    by_cases hsame : position.symbol = symbol
    · rw [if_pos hsame, ← hold, ← hsame]
      simpa using hqty
    · rw [if_neg hsame]
      exact hold
  · intro symbol hsome
    simp only [savePosition, hsymbol, Dict.insert_get] at hsome
    by_cases hsame : position.symbol = symbol
    · rw [← hsame, hsymbol]
    · rw [if_neg hsame] at hsome
      exact h.normal symbol hsome

end Conserved

section Runs

/-- A write happens, or the process was gone before it. -/
theorem ends_write {α : Type} (f : Store → α × Store) (s : Process) (Q : α → Process → Prop)
    (E : Halt → Process → Prop) :
    Ends (write f) s Q E ↔
      if s.writesLeft = some 0 then E .stopped s
      else Q (f s.store).1 ⟨(f s.store).2, s.writesLeft.map (· - 1)⟩ := by
  simp only [write, ends_bind, ends_get, ends_ite, ends_throw, ends_set, ends_pure]

/-- The condition on a fill: if it will be saved, its position will be written too, and a sale is
one of what is held. -/
def FillOk (process : Process) (fill : TradeFill) : Prop :=
  knownFill process.store fill = false → process.writesLeft ≠ some 0 →
    process.writesLeft ≠ some 1 ∧ Bookable process.store fill

instance (store : Store) (fill : TradeFill) : Decidable (Bookable store fill) := by
  have hquote : Decidable (∃ quote, quoteCurrency fill.symbol = .ok quote) :=
    match h : quoteCurrency fill.symbol with
    | .ok quote => isTrue ⟨quote, rfl⟩
    | .error exc => isFalse (by simp)
  unfold Bookable
  infer_instance

instance (process : Process) (fill : TradeFill) : Decidable (FillOk process fill) := by
  unfold FillOk
  infer_instance

theorem refreshFill_conserved (now : DateTime) (inserted : ℕ) (fill : TradeFill) :
    Triple (fun s => Conserved s.store ∧ FillOk s fill) (refreshFill now inserted fill)
      (fun _ s => Conserved s.store) (fun _ s => Conserved s.store) := by
  rintro s ⟨hconserved, hok⟩
  rw [refreshFill, ends_bind, ends_write]
  by_cases hgone : s.writesLeft = some 0
  · rw [if_pos hgone]
    exact hconserved
  · rw [if_neg hgone]
    cases hknown : knownFill s.store fill with
    | true =>
      have hsave : saveFill fill s.store = (false, s.store) := by simp [saveFill, hknown]
      rw [hsave]
      exact hconserved
    | false =>
      obtain ⟨hlast, ⟨quote, hquote⟩, hsell⟩ := hok hknown hgone
      have hfirst : (saveFill fill s.store).1 = true := by simp [saveFill, hknown]
      have hpositions : (saveFill fill s.store).2.positions = s.store.positions := by
        simp [saveFill, hknown]
      obtain ⟨hqty, hsymbol⟩ :=
        getPosition_held (saveFill fill s.store).2 (normalizeSymbol fill.symbol) now
      rw [normalizeSymbol_idem] at hqty hsymbol
      have hheld : heldQty (saveFill fill s.store).2 (normalizeSymbol fill.symbol) =
          heldQty s.store (normalizeSymbol fill.symbol) := by rw [heldQty, hpositions, heldQty]
      have hleft : s.writesLeft.map (· - 1) ≠ some 0 := by
        cases hn : s.writesLeft with
        | none => simp
        | some n =>
          rw [hn] at hgone hlast
          simp only [Option.map_some, ne_eq, Option.some.injEq] at hgone hlast ⊢
          omega
      rw [hfirst, if_pos rfl, ends_bind, applyFill, ends_bind, ends_get]
      simp only [hquote]
      rw [ends_write, if_neg hleft]
      exact hconserved.fill hknown hsymbol (hqty.trans hheld) hsell

/-- The condition on the fills of an answer, in the states they are taken in. -/
def ReadOk (now : DateTime) (inserted : ℕ) (read : Read) (process : Process) : Prop :=
  match read.2 with
  | .error _ => True
  | .ok fills => Along (fun _ fill s => FillOk s fill) (refreshFill now) fills inserted process

instance (now : DateTime) (inserted : ℕ) (read : Read) (process : Process) :
    Decidable (ReadOk now inserted read process) := by
  unfold ReadOk
  cases read.2 <;> infer_instance

theorem refreshSymbol_conserved (now : DateTime) (inserted : ℕ) (read : Read) :
    Triple (fun s => Conserved s.store ∧ ReadOk now inserted read s)
      (refreshSymbol now inserted read)
      (fun _ s => Conserved s.store) (fun _ s => Conserved s.store) := by
  rintro s ⟨hconserved, hok⟩
  unfold refreshSymbol
  cases hread : read.2 with
  | error exc => exact hconserved
  | ok fills =>
    rw [ReadOk, hread] at hok
    exact Along.foldlM (I := fun _ s => Conserved s.store)
      (fun inserted fill => refreshFill_conserved now inserted fill) fills inserted s hconserved
      hok

theorem markPosition_conserved (markPrices : Dict ℚ) (now : DateTime) (qty : String → ℚ)
    (position : Position) (hsymbol : normalizeSymbol position.symbol = position.symbol)
    (hqty : position.qty = qty position.symbol) :
    Triple (fun s => Conserved s.store ∧ heldQty s.store = qty)
      (markPosition markPrices now () position)
      (fun _ s => Conserved s.store ∧ heldQty s.store = qty) (fun _ s => Conserved s.store) := by
  rintro s ⟨hconserved, hheld⟩
  rw [markPosition, ends_write]
  split
  · exact hconserved
  · have hagain : Conserved (savePosition (markedPosition markPrices now position) s.store).2 :=
      hconserved.again hsymbol (by rw [hheld]; exact hqty)
    refine ⟨hagain, ?_⟩
    funext symbol
    rw [← hheld, hagain.qty, hconserved.qty]
    rfl

theorem mem_getPositions {store : Store} (h : Conserved store) {position : Position}
    (hmem : position ∈ getPositions store) :
    normalizeSymbol position.symbol = position.symbol ∧
      position.qty = heldQty store position.symbol := by
  obtain ⟨entry, hentry, rfl⟩ := List.mem_map.mp hmem
  have hget := (Dict.mem_toList store.positions entry).mp hentry
  exact ⟨h.normal entry.1 (by simp [hget]), by simp [heldQty, hget]⟩

/-- The condition on a call: that on every fill of it, in the state it is taken in. -/
def CallOk (store : Store) (call : RefreshCall) : Prop :=
  Along (fun inserted read s => ReadOk call.now inserted read s) (refreshSymbol call.now)
    call.reads 0 ⟨store, call.writes⟩

instance (store : Store) (call : RefreshCall) : Decidable (CallOk store call) := by
  unfold CallOk
  infer_instance

theorem storeAfter_conserved (store : Store) (call : RefreshCall) (h : Conserved store)
    (hok : CallOk store call) : Conserved (storeAfter store call) := by
  have hends : Ends (refresh call) ⟨store, call.writes⟩ (fun _ s => Conserved s.store)
      (fun _ s => Conserved s.store) := by
    rw [refresh, ends_bind]
    refine (Along.foldlM (I := fun _ s => Conserved s.store) (fun inserted read =>
      refreshSymbol_conserved call.now inserted read) call.reads 0 _ h hok).mono ?_ fun _ _ he => he
    intro inserted s hs
    rw [ends_bind, ends_get, ends_bind]
    refine (Triple.foldlM (I := fun _ t => Conserved t.store ∧ heldQty t.store = heldQty s.store)
      (E := fun _ t => Conserved t.store) (getPositions s.store) ?_ () s ⟨hs, rfl⟩).mono ?_
      fun _ _ he => he
    · intro position hmem _
      obtain ⟨hsymbol, hqty⟩ := mem_getPositions hs hmem
      exact markPosition_conserved call.markPrices call.now _ position hsymbol hqty
    · exact fun _ t ht => ht.1
  unfold Ends at hends
  unfold storeAfter
  cases hrun : refresh call ⟨store, call.writes⟩ with
  | ok inserted s => simpa [hrun] using hends
  | error halt s => simpa [hrun] using hends

/-- In a run that never stops between a new fill and its position, and never saves a sale of more
than is held, every position is what the saved fills come to after every call. -/
theorem positions_conserve_fills (calls before after : List RefreshCall)
    (hcalls : calls = before ++ after) (hok : Runs.Meets storeAfter CallOk {} calls)
    (symbol : String) :
    heldQty (Runs.run storeAfter {} before) symbol =
      netQty (Runs.run storeAfter {} before) symbol := by
  rw [hcalls] at hok
  have hbefore := (Runs.Meets.append before after hok).1
  exact (Runs.run_meets storeAfter_conserved {} before Conserved.empty hbefore).qty symbol

def lotBought : TradeFill where
  fillId := some "f1"
  orderId := "o1"
  symbol := "BTC_TRY"
  side := .buy
  price := ⟨100, "100"⟩
  qty := ⟨1, "1"⟩
  fee := 0
  feeCurrency := "TRY"
  ts := ⟨1, true⟩

def lotSold : TradeFill :=
  { lotBought with fillId := some "f2", orderId := "o2", side := .sell, ts := ⟨2, true⟩ }

def fetched (fills : List TradeFill) (writes : Option ℕ) : RefreshCall where
  reads := [("BTC_TRY", .ok fills)]
  markPrices := ∅
  now := ⟨9, true⟩
  writes := writes

/-- Folded by their times, the fills never sell more than they bought. -/
def neverOversells (fills : List TradeFill) : Bool :=
  (((fills.insertionSort fun a b => a.ts.micros ≤ b.ts.micros).map signedQty).scanl (· + ·) 0).all
    fun held => 0 ≤ held

def completes (store : Store) (call : RefreshCall) : Bool :=
  match refresh call ⟨store, call.writes⟩ with
  | .ok _ _ => true
  | .error _ _ => false

/-- A stop between the two writes loses the fill, and a sale listed before the purchase it sells
from is lost. -/
theorem fills_lost :
    (neverOversells [lotBought] = true ∧
      completes (storeAfter {} (fetched [lotBought] (some 1))) (fetched [lotBought] none) = true ∧
      heldQty (Runs.run storeAfter {} [fetched [lotBought] (some 1), fetched [lotBought] none])
        "BTCTRY" = 0 ∧
      netQty (Runs.run storeAfter {} [fetched [lotBought] (some 1), fetched [lotBought] none])
        "BTCTRY" = 1) ∧
    neverOversells [lotSold, lotBought] = true ∧
      completes {} (fetched [lotSold, lotBought] none) = true ∧
      heldQty (Runs.run storeAfter {} [fetched [lotSold, lotBought] none]) "BTCTRY" = 1 ∧
      netQty (Runs.run storeAfter {} [fetched [lotSold, lotBought] none]) "BTCTRY" = 0 := by
  decide +kernel

theorem bought_then_sold :
    heldQty (Runs.run storeAfter {} [fetched [lotBought] none, fetched [lotBought, lotSold] none])
        "BTCTRY" =
      netQty (Runs.run storeAfter {}
        [fetched [lotBought] none, fetched [lotBought, lotSold] none]) "BTCTRY" := by
  refine positions_conserve_fills
    [fetched [lotBought] none, fetched [lotBought, lotSold] none] _ [] (List.append_nil _).symm
    ⟨?_, ?_, trivial⟩ "BTCTRY"
  · decide +kernel
  · decide +kernel

end Runs

end Stage3Accounting
