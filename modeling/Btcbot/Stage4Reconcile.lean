import Btcbot.KeyedTable
import Btcbot.Stage4Store
import Mathlib.Algebra.Ring.Rat

/-!
# Reconciling stage 4 orders

An order is stored under its internal client id and sent under an exchange client id
made from it. The open orders of the exchange are matched with the stored ones by
client id.
-/
namespace Stage4Reconcile

open PyData KeyedTable
open Stage4Store (OrderMode)

structure Order where
  symbol : String
  side : String
  type : String
  price : ℚ
  qty : ℚ
  status : String
  createdAt : ℤ
  updatedAt : ℤ
  exchangeOrderId : Option String := none
  clientOrderId : Option String := none
  exchangeClientId : Option String := none
  mode : OrderMode := .dryRun
  deriving DecidableEq, Repr

/-- A text is true when it is not empty. -/
def truthy (text : Option String) : Bool := text.getD "" ≠ ""

section ClientId

-- The hexadecimal digest of a text.
variable (sha256 : String → String)

def btcturkClientIdMaxLen : ℕ := 50

def buildExchangeClientId (internalClientId symbol side : String) : String :=
  let sideToken := match (strip side).toLower.toList with
    | [] => "x"
    | c :: _ => String.ofList [c]
  let symbolToken := (String.ofList ((canonicalSymbol symbol).toList.take 6)).toLower
  let digest := String.ofList ((sha256 internalClientId).toList.take 32)
  String.ofList
    (("b4-" ++ symbolToken ++ "-" ++ sideToken ++ "-" ++ digest).toList.take btcturkClientIdMaxLen)

theorem buildExchangeClientId_ne_empty (internalClientId symbol side : String) :
    buildExchangeClientId sha256 internalClientId symbol side ≠ "" := by
  intro hempty
  have hlist := congrArg String.toList hempty
  simp [buildExchangeClientId, btcturkClientIdMaxLen] at hlist

end ClientId

inductive OrderSide where
  | buy
  | sell
  deriving DecidableEq, Repr

def OrderSide.value : OrderSide → String
  | .buy => "buy"
  | .sell => "sell"

inductive ExchangeOrderStatus where
  | «open»
  | partialFill
  | filled
  | canceled
  | rejected
  | unknown
  deriving DecidableEq, Repr

def ExchangeOrderStatus.local : ExchangeOrderStatus → String
  | .open => "open"
  | .partialFill => "partial"
  | .filled => "filled"
  | .canceled => "canceled"
  | .rejected => "rejected"
  | .unknown => "unknown"

/-- A row of the open orders answer, its side and status as the client reads them. -/
structure OpenOrderItem where
  side : Option OrderSide
  status : ExchangeOrderStatus
  time : Option ℤ
  timestamp : Option ℤ
  updateTime : Option ℤ
  update_time : Option ℤ
  pairSymbolNormalized : Option String
  pairSymbol : Option String
  type : Option String
  price : ℚ
  quantity : Option ℚ
  amount : Option ℚ
  id : Option String
  orderClientId : Option String

/-- The first of two values that is not zero. -/
def firstNonZero {α : Type} [Zero α] [DecidableEq α] (a b : Option α) : Option α :=
  if a.getD 0 = 0 then b else a

def rawSymbol (item : OpenOrderItem) : Option String :=
  if truthy item.pairSymbolNormalized then item.pairSymbolNormalized else item.pairSymbol

def parseStage4OpenOrderItem (now : ℤ) (item : OpenOrderItem) : Option Order := do
  let side ← item.side
  let ts := ((firstNonZero item.time item.timestamp).filter (· ≠ 0)).getD now
  let updated := ((firstNonZero item.updateTime item.update_time).filter (· ≠ 0)).getD ts
  let symbol ← rawSymbol item
  pure
    { symbol := normalizeSymbol symbol
      side := side.value
      type := (if truthy item.type then item.type.getD "" else "limit").toLower
      price := item.price
      qty := (firstNonZero item.quantity item.amount).getD 0
      status := item.status.local
      createdAt := ts
      updatedAt := updated
      exchangeOrderId := item.id
      clientOrderId := if truthy item.orderClientId then item.orderClientId else none
      mode := .live }

def listOpenOrders (now : ℤ) (items : List OpenOrderItem) : List Order :=
  items.filterMap (parseStage4OpenOrderItem now)

structure ReconcileResult where
  markUnknownClosed : List String
  importExternal : List Order
  enrichExchangeIds : List (String × String)
  externalMissingClientId : List Order

/-- The orders with a client id, under it. -/
def byClientId (orders : List Order) : List (String × Order) :=
  ofEntries (orders.filterMap fun order =>
    if truthy order.clientOrderId then order.clientOrderId.map (·, order) else none)

def dbByClient (dbOpenOrders : List Order) : List (String × Order) :=
  byClientId (dbOpenOrders.filter (·.mode ≠ .external))

def Blocked (failedSymbols : List String) (order : Order) : Prop :=
  order.symbol.toUpper ∈ failedSymbols.map String.toUpper

instance (failedSymbols : List String) (order : Order) :
    Decidable (Blocked failedSymbols order) := by
  unfold Blocked
  infer_instance

def resolve (exchangeOpenOrders dbOpenOrders : List Order) (failedSymbols : List String) :
    ReconcileResult :=
  let exchangeByClient := byClientId exchangeOpenOrders
  let dbByClient := dbByClient dbOpenOrders
  let checked := dbByClient.filter fun entry => ¬ Blocked failedSymbols entry.2
  { markUnknownClosed :=
      (checked.filter fun entry => get? exchangeByClient entry.1 = none).map Prod.fst
    importExternal :=
      (exchangeByClient.filter fun entry => entry.1 ∉ keys dbByClient).map fun entry =>
        { entry.2 with mode := .external }
    enrichExchangeIds := checked.filterMap fun entry =>
      match get? exchangeByClient entry.1 with
      | some found =>
        if ¬ truthy entry.2.exchangeOrderId ∧ truthy found.exchangeOrderId
        then found.exchangeOrderId.map (entry.1, ·) else none
      | none => none
    externalMissingClientId := exchangeOpenOrders.filter fun order => ¬ truthy order.clientOrderId }

section ByClientId

theorem mem_keys_byClientId (orders : List Order) (k : String) :
    k ∈ keys (byClientId orders) ↔ k ≠ "" ∧ ∃ order ∈ orders, order.clientOrderId = some k := by
  rw [byClientId, mem_keys_ofEntries]
  simp only [keys, List.mem_map, List.mem_filterMap, Prod.exists, exists_and_right, exists_eq_right]
  constructor
  · rintro ⟨found, order, horder, hentry⟩
    split at hentry
    · next htruthy =>
      cases hid : order.clientOrderId with
      | none => simp [hid] at hentry
      | some c =>
        simp only [hid, Option.map_some, Option.some.injEq, Prod.mk.injEq] at hentry
        obtain ⟨rfl, -⟩ := hentry
        exact ⟨by simpa [truthy, hid] using htruthy, order, horder, hid⟩
    · cases hentry
  · rintro ⟨hne, order, horder, hid⟩
    exact ⟨order, order, horder, by simp [truthy, hid, hne]⟩

theorem mem_byClientId {orders : List Order} {entry : String × Order}
    (h : entry ∈ byClientId orders) :
    entry.2 ∈ orders ∧ entry.2.clientOrderId = some entry.1 := by
  have hentry := mem_of_mem_ofEntries _ h
  obtain ⟨order, horder, hmap⟩ := List.mem_filterMap.mp hentry
  split at hmap
  · cases hid : order.clientOrderId with
    | none => simp [hid] at hmap
    | some c =>
      simp only [hid, Option.map_some, Option.some.injEq] at hmap
      subst hmap
      exact ⟨horder, hid⟩
  · cases hmap

/-- Orders with different client ids are all kept. -/
theorem mem_byClientId_of_nodup {orders : List Order} {order : Order} {c : String}
    (hnodup : (orders.filterMap Order.clientOrderId).Nodup) (horder : order ∈ orders)
    (hid : order.clientOrderId = some c) (hne : c ≠ "") : (c, order) ∈ byClientId orders := by
  have hkeys : (keys (orders.filterMap fun order =>
      if truthy order.clientOrderId then order.clientOrderId.map (·, order) else none)).Nodup := by
    refine hnodup.sublist ?_
    clear hnodup horder
    induction orders with
    | nil => exact .slnil
    | cons first orders ih =>
      cases hfirst : first.clientOrderId with
      | none =>
        simp only [List.filterMap_cons, hfirst, truthy, Option.getD_none, ne_eq,
          not_true_eq_false, decide_false, Bool.false_eq_true, if_false]
        exact ih
      | some k =>
        simp only [List.filterMap_cons, hfirst, truthy, Option.getD_some, Option.map_some]
        by_cases hk : k = ""
        · simp only [hk, ne_eq, not_true_eq_false, decide_false, Bool.false_eq_true, if_false]
          exact ih.cons _
        · simp only [ne_eq, hk, not_false_eq_true, decide_true, if_true, keys, List.map_cons]
          exact ih.cons_cons _
  rw [byClientId, ofEntries_of_nodup _ hkeys]
  exact List.mem_filterMap.mpr ⟨order, horder, by simp [truthy, hid, hne]⟩

end ByClientId

section Recognised

variable {exchangeOrders dbOrders : List Order} {failedSymbols : List String}

/-- A stored order is marked unknown when the exchange reports nothing under its id. -/
theorem mem_markUnknownClosed_iff {order : Order} {c : String}
    (hnodup : (dbOrders.filterMap Order.clientOrderId).Nodup) (horder : order ∈ dbOrders)
    (hmode : order.mode ≠ .external) (hid : order.clientOrderId = some c) (hne : c ≠ "")
    (hfetched : ¬ Blocked failedSymbols order) :
    c ∈ (resolve exchangeOrders dbOrders failedSymbols).markUnknownClosed ↔
      ¬ ∃ found ∈ exchangeOrders, found.clientOrderId = some c := by
  have hkeys := mem_keys_byClientId exchangeOrders c
  have hget := get?_isSome_iff (byClientId exchangeOrders) c
  have hfree : get? (byClientId exchangeOrders) c = none ↔
      ¬ ∃ found ∈ exchangeOrders, found.clientOrderId = some c := by
    rw [← not_iff_not, not_not, ← ne_eq, hget, hkeys]
    exact and_iff_right hne
  rw [← hfree]
  simp only [resolve, List.mem_map, List.mem_filter]
  constructor
  · rintro ⟨entry, ⟨-, hunknown⟩, rfl⟩
    simpa using hunknown
  · intro hunknown
    have hstored : (dbOrders.filter (·.mode ≠ .external)).filterMap Order.clientOrderId |>.Nodup :=
      hnodup.sublist (List.filter_sublist.filterMap _)
    have hin : (c, order) ∈ dbByClient dbOrders :=
      mem_byClientId_of_nodup hstored (List.mem_filter.mpr ⟨horder, by simpa using hmode⟩) hid hne
    exact ⟨(c, order), ⟨⟨hin, by simpa using hfetched⟩, by simpa using hunknown⟩, rfl⟩

/-- An order of the exchange is imported when nothing is stored under the id it has there. -/
theorem imported_iff {c : String} (hne : c ≠ "")
    (hreported : ∃ found ∈ exchangeOrders, found.clientOrderId = some c) :
    (∃ imported ∈ (resolve exchangeOrders dbOrders failedSymbols).importExternal,
        imported.clientOrderId = some c) ↔
      ¬ ∃ order ∈ dbOrders, order.mode ≠ .external ∧ order.clientOrderId = some c := by
  have hkeys := mem_keys_byClientId (dbOrders.filter (·.mode ≠ .external)) c
  simp only [List.mem_filter, decide_eq_true_eq, and_assoc] at hkeys
  simp only [resolve, List.mem_map, List.mem_filter, decide_eq_true_eq]
  constructor
  · rintro ⟨imported, ⟨entry, ⟨hentry, hnew⟩, rfl⟩, hid⟩ hstored
    have hkey : entry.1 = c := by
      have := (mem_byClientId hentry).2
      rw [this] at hid
      exact Option.some.inj hid
    rw [hkey] at hnew
    exact hnew (hkeys.mpr ⟨hne, hstored⟩)
  · intro hnone
    have hkey : c ∈ keys (byClientId exchangeOrders) :=
      (mem_keys_byClientId exchangeOrders c).mpr ⟨hne, hreported⟩
    obtain ⟨entry, hentry, rfl⟩ := List.mem_map.mp hkey
    refine ⟨_, ⟨entry, ⟨hentry, fun hin => hnone (hkeys.mp hin).2⟩, rfl⟩, ?_⟩
    exact (mem_byClientId hentry).2

/-- A stage 4 order as submitted live. -/
structure SubmittedLive (sha256 : String → String) (order : Order) (internalId : String) :
    Prop where
  mode_eq : order.mode = .live
  clientOrderId_eq : order.clientOrderId = some internalId
  internalId_ne : internalId ≠ ""
  exchangeClientId_eq : order.exchangeClientId =
    some (buildExchangeClientId sha256 internalId order.symbol order.side)

/-- The exchange reports an order with a side, a symbol, and the client id it was sent
with. -/
structure Reports (item : OpenOrderItem) (order : Order) : Prop where
  side_some : item.side.isSome
  symbol_some : truthy item.pairSymbolNormalized ∨ item.pairSymbol.isSome
  orderClientId_eq : item.orderClientId = order.exchangeClientId

theorem Reports.parsed {item : OpenOrderItem} {order : Order} {e : String}
    (h : Reports item order) (he : order.exchangeClientId = some e) (hne : e ≠ "") (now : ℤ) :
    ∃ found, parseStage4OpenOrderItem now item = some found ∧ found.clientOrderId = some e := by
  obtain ⟨side, hside⟩ := Option.isSome_iff_exists.mp h.side_some
  obtain ⟨symbol, hsymbol⟩ : ∃ symbol, rawSymbol item = some symbol := by
    unfold rawSymbol
    split
    · next htruthy =>
      cases hnormalized : item.pairSymbolNormalized with
      | none => simp [truthy, hnormalized] at htruthy
      | some symbol => exact ⟨symbol, rfl⟩
    · next htruthy => exact Option.isSome_iff_exists.mp (h.symbol_some.resolve_left htruthy)
  have hid : item.orderClientId = some e := h.orderClientId_eq.trans he
  refine ⟨_, by simp [parseStage4OpenOrderItem, hside, hsymbol]; rfl, ?_⟩
  simp [truthy, hid, hne]

/-- The open orders of the exchange are recognised just when the two kinds of client ids
meet: each internal id is one the exchange reports, and each id it reports is stored as
an internal one. -/
theorem recognised_iff (sha256 : String → String) (dbOrders stillOpen : List Order)
    (internalId : Order → String) (item : Order → OpenOrderItem) (now : ℤ)
    (failedSymbols : List String)
    (hunique : (dbOrders.filterMap Order.clientOrderId).Nodup)
    (hstored : ∀ order ∈ stillOpen, order ∈ dbOrders)
    (hlive : ∀ order ∈ stillOpen, SubmittedLive sha256 order (internalId order))
    (hreports : ∀ order ∈ stillOpen, Reports (item order) order)
    (hfetched : ∀ order ∈ stillOpen, ¬ Blocked failedSymbols order) :
    let result := resolve (listOpenOrders now (stillOpen.map item)) dbOrders failedSymbols
    (∀ order ∈ stillOpen, internalId order ∉ result.markUnknownClosed ∧
        ∀ imported ∈ result.importExternal,
          imported.clientOrderId ≠ order.exchangeClientId) ↔
      ∀ order ∈ stillOpen,
        (∃ other ∈ stillOpen, other.exchangeClientId = some (internalId order)) ∧
        ∃ other ∈ dbOrders, other.mode ≠ .external ∧
          other.clientOrderId = order.exchangeClientId := by
  intro result
  have hreported : ∀ c : String, (∃ found ∈ listOpenOrders now (stillOpen.map item),
      found.clientOrderId = some c) ↔ ∃ other ∈ stillOpen, other.exchangeClientId = some c := by
    intro c
    constructor
    · rintro ⟨found, hfound, hid⟩
      obtain ⟨row, hrow, hparse⟩ := List.mem_filterMap.mp hfound
      obtain ⟨other, hother, rfl⟩ := List.mem_map.mp hrow
      have hexchange := (hlive other hother).exchangeClientId_eq
      obtain ⟨found', hparse', hid'⟩ := (hreports other hother).parsed hexchange
        (buildExchangeClientId_ne_empty _ _ _ _) now
      rw [hparse] at hparse'
      cases hparse'
      rw [hid] at hid'
      exact ⟨other, hother, hexchange.trans hid'.symm⟩
    · rintro ⟨other, hother, hexchange⟩
      have hne : c ≠ "" := by
        rw [(hlive other hother).exchangeClientId_eq] at hexchange
        cases hexchange
        exact buildExchangeClientId_ne_empty _ _ _ _
      obtain ⟨found, hparse, hid⟩ := (hreports other hother).parsed hexchange hne now
      exact ⟨found, List.mem_filterMap.mpr ⟨_, List.mem_map_of_mem hother, hparse⟩, hid⟩
  refine forall₂_congr fun order horder => and_congr ?_ ?_
  · have hsubmitted := hlive order horder
    rw [mem_markUnknownClosed_iff hunique (hstored order horder) (by simp [hsubmitted.mode_eq])
      hsubmitted.clientOrderId_eq hsubmitted.internalId_ne (hfetched order horder), not_not]
    exact hreported _
  · have hexchange := (hlive order horder).exchangeClientId_eq
    have himported := @imported_iff (listOpenOrders now (stillOpen.map item)) dbOrders failedSymbols _
      (buildExchangeClientId_ne_empty sha256 (internalId order) order.symbol order.side)
      ((hreported _).mpr ⟨order, horder, hexchange⟩)
    rw [hexchange]
    constructor
    · intro hall
      by_contra hnone
      obtain ⟨imported, hin, hid⟩ := himported.mpr hnone
      exact hall imported hin hid
    · intro hdb imported hin hid
      exact himported.mp ⟨imported, hin, hid⟩ hdb

end Recognised

section Sample

/-- The digest of the one id used here. -/
def sampleSha256 (_ : String) : String :=
  "a7e4b19a5b7721ad42279aef0d12274e0465e5839074ce1cfa162ac56c392a33"

/-- A live buy as stored. -/
def sampleOrder : Order where
  symbol := "BTCTRY"
  side := "buy"
  type := "limit"
  price := 100
  qty := 1
  status := "open"
  createdAt := 0
  updatedAt := 0
  exchangeOrderId := some "1"
  clientOrderId := some "cid-1"
  exchangeClientId := some "b4-btctry-b-a7e4b19a5b7721ad42279aef0d12274e"
  mode := .live

/-- The same order as the exchange reports it. -/
def sampleItem (order : Order) : OpenOrderItem where
  side := some .buy
  status := .open
  time := some 1
  timestamp := none
  updateTime := none
  update_time := none
  pairSymbolNormalized := some "BTC_TRY"
  pairSymbol := none
  type := none
  price := 100
  quantity := some 1
  amount := none
  id := some "1"
  orderClientId := order.exchangeClientId

theorem recognised_iff_sample :
    let result := resolve (listOpenOrders 0 ([sampleOrder].map sampleItem)) [sampleOrder] []
    (∀ order ∈ [sampleOrder], "cid-1" ∉ result.markUnknownClosed ∧
        ∀ imported ∈ result.importExternal,
          imported.clientOrderId ≠ order.exchangeClientId) ↔
      ∀ order ∈ [sampleOrder],
        (∃ other ∈ [sampleOrder], other.exchangeClientId = some "cid-1") ∧
        ∃ other ∈ [sampleOrder], other.mode ≠ .external ∧
          other.clientOrderId = order.exchangeClientId :=
  recognised_iff sampleSha256 [sampleOrder] [sampleOrder] (fun _ => "cid-1") sampleItem 0 []
    (by decide) (fun _ h => h)
    (fun order h => by
      cases List.mem_singleton.mp h
      exact ⟨rfl, rfl, by decide, by decide +kernel⟩)
    (fun order _ => ⟨rfl, .inl (show truthy (some "BTC_TRY") = true by decide), rfl⟩)
    (fun order _ => by simp [Blocked])

/-- The bot takes its own order for a foreign one, and the stored one for closed. -/
theorem own_order_unrecognised :
    let result := resolve (listOpenOrders 0 [sampleItem sampleOrder]) [sampleOrder] []
    sampleOrder.exchangeClientId =
        some (buildExchangeClientId sampleSha256 "cid-1" "BTCTRY" "buy") ∧
      result.markUnknownClosed = ["cid-1"] ∧
      result.importExternal.map Order.clientOrderId = [sampleOrder.exchangeClientId] := by
  decide +kernel

end Sample

end Stage4Reconcile
