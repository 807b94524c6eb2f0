import Btcbot.ScaledPlan

/-!
# What a cycle bids

The orders of the pipeline, with the strategy that the program gives it, are told by symbols
and quantities: the purchases on their grids, raised to the exchange's minimum where they
fall under it, or the shares of the scored symbols. The largest are selected.
-/
namespace CycleBids

open PyData AllocationService DecisionPipeline CycleCap
open Stage4Planning (decisionPipeline)
open KernelOrders EqualPurchases FirstShares Gathering ScaledPlan
open Stage4Execute (quantizePrice quantizeQty)

section Bids

variable (settings : Settings)
  (universeSelector : List SymbolInfo → List (String × OrderBookSummary) → List String)
  (input : CycleInput) (symbols : List String)

/-- The quantity that is ordered where a purchase comes to one on the grid. -/
def orderedQty (symbol : String) (qty : ℚ) : Except PlanError ℚ :=
  match (pairInfoBySymbol input.pairInfo)[symbol]? with
  | none => .ok 0
  | some pair =>
    let rules := buildExchangeRules pair
    let price := priceOf input symbol
    let raised := raisedQty price rules
    if qty ≤ 0 then .ok 0
    else if validateMinNotional price qty rules then .ok qty
    else if price = 0 then .error .divisionByZero
    else if raised ≤ qty || !validateMinNotional price raised rules then .ok 0
    else .ok raised

def bidOf (symbol : String) (qty : ℚ) : List (String × ℚ) :=
  if 0 < qty then [(symbol, qty)] else []

/-- The symbols that are bought, with the quantities. -/
def bids : Except PlanError (List (String × ℚ)) :=
  match scoresOf input with
  | none => gather ((purchases settings input symbols).mapIdx fun place symbol =>
      (orderedQty input symbol (coins settings universeSelector input place symbol)).map
        (bidOf symbol))
  | some scores => .ok ((eligible input symbols).dedup.filterMap fun symbol =>
      (lastShare settings input symbols scores symbol).map fun share => (symbol, share.2.1))

def bidTerms (bid : String × ℚ) : String × String × ℚ × ℚ :=
  (bid.1, "buy", priceOf input bid.1, bid.2)

/-- The largest bid first. -/
def bidKey (bid : String × ℚ) : ℚ ×ₗ String :=
  toLex (0 - bid.2 * priceOf input bid.1, canonicalSymbol bid.1)

def selectedBids (bids : List (String × ℚ)) : List (String × ℚ) :=
  (bids.insertionSort fun a b => bidKey input a ≤ bidKey input b).take
    settings.maxOrdersPerCycle.toNat

def worthOf (bid : String × ℚ) : ℚ := priceOf input bid.1 * bid.2

/-- What the largest bids are worth together. -/
def selectedWorth (bids : List (String × ℚ)) : ℚ :=
  (((bids.map (worthOf input)).insertionSort (· ≥ ·)).take settings.maxOrdersPerCycle.toNat).sum

end Bids

section Orders

variable {input : CycleInput}

/-- The order of a quantity on the grid is in the quantity ordered, if there is one. -/
theorem mapAction_ordered {symbol : String} {qty : ℚ} (place : ℕ)
    (hmark : 0 < markOf input symbol) (hsymbol : canonicalSymbol symbol = symbol) (hqty : 0 < qty)
    (hgrid : ∀ pair, (pairInfoBySymbol input.pairInfo)[symbol]? = some pair →
      quantizeQty qty (buildExchangeRules pair) = qty) :
    (mapAction input (purchaseOf place symbol qty)).map Except.toOption =
      (orderedQty input symbol qty).map fun ordered =>
        if 0 < ordered then some (orderOf (purchaseOf place symbol qty) input.liveMode
          (priceOf input symbol) ordered input.nowTs)
        else none := by
  unfold mapAction orderedQty
  simp only [purchaseOf, hsymbol]
  cases hpair : (pairInfoBySymbol input.pairInfo)[symbol]? with
  | none => simp only [Except.map, Except.toOption, lt_irrefl, if_false]
  | some pair =>
    have hprice : quantizePrice (markOf input symbol) (buildExchangeRules pair) =
        priceOf input symbol := by
      simp only [priceOf, hpair]
    simp only [sizedActionToOrder, get_of_marked hmark, if_neg (not_le.mpr hmark),
      if_neg (not_le.mpr hqty), hgrid pair hpair, hprice]
    rw [if_neg (not_not.mpr rfl)]
    generalize hraised : raisedQty (priceOf input symbol) (buildExchangeRules pair) = raised
    by_cases hvalid : validateMinNotional (priceOf input symbol) qty (buildExchangeRules pair) = true
    · simp only [if_pos hvalid, Except.map, Except.toOption, if_pos hqty]
    · by_cases hzero : priceOf input symbol = 0
      · simp only [if_neg hvalid, if_pos hzero, Except.map]
      · by_cases hsmall : (decide (raised ≤ qty) ||
            !validateMinNotional (priceOf input symbol) raised (buildExchangeRules pair)) = true
        · simp only [if_neg hvalid, if_neg hzero, if_pos hsmall, Except.map, Except.toOption,
            lt_irrefl, if_false]
        · have hmore : qty < raised := by
            simp only [Bool.or_eq_true, decide_eq_true_eq, not_or, not_le] at hsmall
            exact hsmall.1
          simp only [if_neg hvalid, if_neg hzero, if_neg hsmall, Except.map, Except.toOption,
            if_pos (hqty.trans hmore)]

/-- The order of a purchase is the bid of the quantity ordered. -/
theorem orderFor_terms {symbol : String} (place : ℕ) {amount : ℚ} (hmark : 0 < markOf input symbol)
    (hsymbol : canonicalSymbol symbol = symbol) :
    (orderFor input place symbol (coinsFor input symbol amount)).map (List.map termsOf) =
      ((orderedQty input symbol (coinsFor input symbol amount)).map (bidOf symbol)).map
        (List.map (bidTerms input)) := by
  have hgrid (pair : PairInfo) (hpair : (pairInfoBySymbol input.pairInfo)[symbol]? = some pair) :
      quantizeQty (coinsFor input symbol amount) (buildExchangeRules pair) =
        coinsFor input symbol amount := by
    simp only [coinsFor, hpair]
    exact quantizeQty_idem _ _
  generalize coinsFor input symbol amount = qty at hgrid
  unfold orderFor
  split
  · next hnone =>
    unfold orderedQty
    cases (pairInfoBySymbol input.pairInfo)[symbol]? with
    | none => simp only [Except.map, bidOf, lt_irrefl, if_false, List.map_nil]
    | some pair => simp only [if_pos hnone, Except.map, bidOf, lt_irrefl, if_false, List.map_nil]
  · next hsome =>
    have hmapped := mapAction_ordered place hmark hsymbol (not_le.mp hsome) hgrid
    unfold actionOrders
    cases hordered : orderedQty input symbol qty with
    | error e =>
      cases haction : mapAction input (purchaseOf place symbol qty) with
      | error e' =>
        rw [hordered, haction] at hmapped
        rw [Except.error.inj hmapped]
        rfl
      | ok outcome =>
        rw [hordered, haction] at hmapped
        cases hmapped
    | ok ordered =>
      cases haction : mapAction input (purchaseOf place symbol qty) with
      | error e' =>
        rw [hordered, haction] at hmapped
        cases hmapped
      | ok outcome =>
        rw [hordered, haction] at hmapped
        have houtcome : outcome.toOption = _ := Except.ok.inj hmapped
        simp only [Except.map, houtcome, bidOf]
        split
        · simp only [Option.toList_some, List.map_singleton, termsOf, bidTerms,
            DecisionPipeline.orderOf, purchaseOf, hsymbol, Side.text]
        · rfl

/-- The orders of the purchases are their bids. -/
theorem gather_bids {settings : Settings}
    {universeSelector : List SymbolInfo → List (String × OrderBookSummary) → List String}
    (h : Spelled input) (symbols : List String) :
    (gather ((purchases settings input symbols).mapIdx fun place symbol =>
        orderFor input place symbol (coins settings universeSelector input place symbol))).map
        (List.map termsOf) =
      (gather ((purchases settings input symbols).mapIdx fun place symbol =>
        (orderedQty input symbol (coins settings universeSelector input place symbol)).map
          (bidOf symbol))).map (List.map (bidTerms input)) := by
  rw [← gather_map, ← gather_map, map_mapIdx, map_mapIdx]
  refine congrArg gather (List.mapIdx_eq_mapIdx_iff.mpr fun place hplace => ?_)
  obtain ⟨-, hmark, -, -⟩ := mem_purchases (List.getElem_mem hplace)
  exact orderFor_terms place hmark (marked_normal h hmark)

end Orders

section Cycle

variable {service : Service} {input : CycleInput}

/-- Without scores the strategy is the program's, and the symbols are spelled as it spells
them. -/
def Built (service : Service) (input : CycleInput) : Prop :=
  scoresOf input = none → service.registry = baselineMeanReversion ∧ Spelled input

/-- The orders are the largest of those bid. -/
def SelectedOf (settings : Settings) (input : CycleInput) (bought : List (String × ℚ))
    (selected : List Order) : Prop :=
  ∃ orders, selected = (selectOrdersForCycle settings orders).1 ∧
    (orders.map termsOf).Perm (bought.map (bidTerms input))

theorem shares_perm (scores : Mapping ℚ) (symbols : List String) :
    (share service input scores symbols).plans.toList.Perm
      ((eligible input symbols).dedup.filterMap fun symbol =>
        (lastShare service.settings input symbols scores symbol).map fun plan =>
          (symbol, plan)) := by
  refine (List.perm_ext_iff_of_nodup (Dict.toList_nodup _) ?_).mpr fun entry => ?_
  · refine List.Nodup.filterMap ?_ (List.nodup_dedup _)
    intro symbol other entry hentry hother
    obtain ⟨plan, -, rfl⟩ := Option.map_eq_some_iff.mp hentry
    obtain ⟨plan', -, hsame⟩ := Option.map_eq_some_iff.mp hother
    exact (Prod.mk.inj hsame).1.symm
  · rw [Dict.mem_toList, share_lastShare, List.mem_filterMap]
    constructor
    · intro hplan
      refine ⟨entry.1, List.mem_dedup.mpr ?_, by rw [hplan]; rfl⟩
      by_contra hout
      rw [lastShare_uneligible hout] at hplan
      cases hplan
    · rintro ⟨symbol, -, hentry⟩
      obtain ⟨plan, hplan, rfl⟩ := Option.map_eq_some_iff.mp hentry
      exact hplan

theorem lastShare_price {symbols : List String} {scores : Mapping ℚ} {symbol : String}
    {plan : ℚ × ℚ × ℚ} (h : lastShare service.settings input symbols scores symbol = some plan) :
    plan.1 = priceOf input symbol := by
  unfold lastShare shareAmong at h
  split at h
  · split at h
    · cases h
    · next pair hpair =>
      cases hplan : planShare (sharedBudget service.settings input)
          (weightOf scores (sharing service.settings input symbols scores) symbol)
          (markOf input symbol) pair with
      | error reason =>
        rw [hplan] at h
        cases h
      | ok found =>
        rw [hplan] at h
        obtain rfl := Option.some.inj h
        obtain ⟨-, -, hprice, -, -, -⟩ := planShare_cases hplan
        rw [hprice, priceOf, hpair]
  · cases h

/-- The cycle's orders are the largest of its bids, or it fails where they do. -/
theorem runCycle_bids (h : Built service input) :
    match bids service.settings service.universeSelector input (selectUniverse service input) with
    | .error e => runCycle service input = .error e
    | .ok bought => ∃ report, runCycle service input = .ok report ∧
        SelectedOf service.settings input bought report.orderRequests := by
  unfold bids runCycle
  cases hscores : scoresOf input with
  | none =>
    obtain ⟨hregistry, hspelled⟩ := h hscores
    have hservice : service = decisionPipeline service.settings service.universeSelector := by
      rw [decisionPipeline, ← hregistry]
    have hpath := @normalPath_quantities service.settings service.universeSelector input hspelled
      (selectUniverse service input)
    have hbids := @gather_bids input service.settings service.universeSelector hspelled
      (selectUniverse service input)
    rw [← hservice] at hpath
    obtain ⟨hfails, hbuys⟩ := told_by hpath hbids
    dsimp only
    split
    · next e hbought => exact hfails e hbought
    · next bought hbought =>
      obtain ⟨report, hreport, orders, horders, hterms⟩ := hbuys bought hbought
      exact ⟨report, hreport, orders, horders, .of_eq hterms⟩
  | some scores =>
    refine ⟨_, rfl, _, rfl, ?_⟩
    have hterms : ((share service input scores (selectUniverse service input)).plans.toList.mapIdx
          fun index entry => aggressiveOrder input index entry.1 entry.2).map termsOf =
        (share service input scores (selectUniverse service input)).plans.toList.map fun entry =>
          (entry.1, "buy", entry.2.1, entry.2.2.1) := by
      rw [map_mapIdx]
      exact List.mapIdx_eq_iff.mpr fun _ => List.getElem?_map
    refine (List.Perm.of_eq hterms).trans (((shares_perm scores _).map _).trans (.of_eq ?_))
    rw [List.map_filterMap, List.map_filterMap]
    refine List.filterMap_congr fun symbol _ => ?_
    cases hplan : lastShare service.settings input (selectUniverse service input) scores symbol with
    | none => rfl
    | some plan =>
      simp only [Option.map_some, bidTerms, lastShare_price hplan]

theorem runCycle_fails (h : Built service input) {e : PlanError}
    (hbids : bids service.settings service.universeSelector input (selectUniverse service input) =
      .error e) : runCycle service input = .error e := by
  have hcycle := runCycle_bids h
  rwa [hbids] at hcycle

theorem runCycle_buys (h : Built service input) {bought : List (String × ℚ)}
    (hbids : bids service.settings service.universeSelector input (selectUniverse service input) =
      .ok bought) :
    ∃ report, runCycle service input = .ok report ∧
      SelectedOf service.settings input bought report.orderRequests := by
  have hcycle := runCycle_bids h
  rwa [hbids] at hcycle

end Cycle

section Selection

variable {settings : Settings} {input : CycleInput} {bought : List (String × ℚ)}
  {selected : List Order}

instance rankedBefore_total : Std.Total RankedBefore :=
  ⟨fun a b => le_total (rankKey a) (rankKey b)⟩

instance rankedBefore_trans : IsTrans Order RankedBefore :=
  ⟨fun _ _ _ h h' => le_trans h h'⟩

def termsKey (terms : String × String × ℚ × ℚ) : ℚ ×ₗ String :=
  toLex (0 - terms.2.2.2 * terms.2.2.1, canonicalSymbol terms.1)

theorem termsKey_le {a b : Order} (h : RankedBefore a b) :
    termsKey (termsOf a) ≤ termsKey (termsOf b) := by
  rcases Prod.Lex.toLex_le_toLex.mp h with hless | ⟨hsame, hrest⟩
  · exact Prod.Lex.toLex_le_toLex.mpr (.inl hless)
  · refine Prod.Lex.toLex_le_toLex.mpr (.inr ⟨hsame, ?_⟩)
    rcases Prod.Lex.toLex_le_toLex.mp hrest with hless | ⟨hsymbol, -⟩
    · exact hless.le
    · exact hsymbol.le

theorem orderValue_le {a b : Order} (h : RankedBefore a b) : orderValue b ≤ orderValue a := by
  have hfirst : 0 - a.qty * a.price ≤ 0 - b.qty * b.price := by
    rcases Prod.Lex.toLex_le_toLex.mp h with hless | ⟨hsame, -⟩
    · exact hless.le
    · exact hsame.le
  rw [orderValue, orderValue, mul_comm b.price, mul_comm a.price]
  exact (sub_le_sub_iff_left 0).mp hfirst

theorem worth_terms {orders : List Order}
    (h : (orders.map termsOf).Perm (bought.map (bidTerms input))) :
    (orders.map orderValue).Perm (bought.map (worthOf input)) := by
  have hvalues := h.map fun terms => terms.2.2.1 * terms.2.2.2
  rw [List.map_map, List.map_map] at hvalues
  exact hvalues

/-- The orders selected are worth what the largest bids are. -/
theorem SelectedOf.worth (h : SelectedOf settings input bought selected) :
    valueOf selected = selectedWorth settings input bought := by
  obtain ⟨orders, rfl, hterms⟩ := h
  have hsorted : (orders.insertionSort RankedBefore).map orderValue =
      (bought.map (worthOf input)).insertionSort (· ≥ ·) := by
    refine List.Perm.eq_of_pairwise (fun a b _ _ hle hge => le_antisymm hge hle)
      ((List.pairwise_insertionSort RankedBefore orders).map orderValue fun a b => orderValue_le)
      (List.pairwise_insertionSort _ _) ?_
    exact ((List.perm_insertionSort RankedBefore orders).map orderValue).trans
      ((worth_terms hterms).trans (List.perm_insertionSort _ _).symm)
  rw [valueOf, selectedWorth, selectOrdersForCycle, List.map_take, hsorted]

/-- Where every symbol is bid for once, the orders selected are the largest bids. -/
theorem SelectedOf.terms (h : SelectedOf settings input bought selected)
    (hdistinct : (bought.map fun bid => canonicalSymbol bid.1).Nodup) :
    selected.map termsOf = (selectedBids settings input bought).map (bidTerms input) := by
  obtain ⟨orders, rfl, hterms⟩ := h
  have hsorted : (orders.insertionSort RankedBefore).map termsOf =
      (bought.insertionSort fun a b => bidKey input a ≤ bidKey input b).map (bidTerms input) := by
    have hperm : ((orders.insertionSort RankedBefore).map termsOf).Perm
        ((bought.insertionSort fun a b => bidKey input a ≤ bidKey input b).map
          (bidTerms input)) :=
      ((List.perm_insertionSort RankedBefore orders).map termsOf).trans
        (hterms.trans ((List.perm_insertionSort _ _).map _).symm)
    refine List.Perm.eq_of_pairwise ?_
      ((List.pairwise_insertionSort RankedBefore orders).map termsOf fun a b => termsKey_le)
      ((List.pairwise_insertionSort (fun a b => bidKey input a ≤ bidKey input b) bought).map
        (S := fun terms other => termsKey terms ≤ termsKey other) (bidTerms input)
        fun a b hle => hle) hperm
    intro a b ha hb hle hge
    obtain ⟨bid, hbid, rfl⟩ := List.mem_map.mp (hperm.subset ha)
    obtain ⟨other, hother, rfl⟩ := List.mem_map.mp hb
    have hkeys : termsKey (bidTerms input bid) = termsKey (bidTerms input other) :=
      le_antisymm hle hge
    rw [List.inj_on_of_nodup_map hdistinct ((List.mem_insertionSort _).mp hbid)
      ((List.mem_insertionSort _).mp hother) (Prod.mk.inj (toLex.injective hkeys)).2]
  rw [selectOrdersForCycle, selectedBids, List.map_take, List.map_take, hsorted]

theorem SelectedOf.buys (h : SelectedOf settings input bought selected) :
    ∀ order ∈ selected, order.side = "buy" := by
  obtain ⟨orders, rfl, hterms⟩ := h
  intro order hin
  have hrequested := (List.perm_insertionSort RankedBefore orders).mem_iff.mp
    (List.mem_of_mem_take hin)
  obtain ⟨bid, -, hbid⟩ := List.mem_map.mp (hterms.subset (List.mem_map_of_mem hrequested))
  exact ((Prod.mk.inj (Prod.mk.inj hbid).2).1).symm

theorem SelectedOf.eq_nil (h : SelectedOf settings input bought selected) :
    selected = [] ↔ settings.maxOrdersPerCycle ≤ 0 ∨ bought = [] := by
  obtain ⟨orders, rfl, hterms⟩ := h
  have hlength := hterms.length_eq
  rw [List.length_map, List.length_map] at hlength
  rw [selectOrdersForCycle, List.take_eq_nil_iff, ← List.length_eq_zero_iff,
    List.length_insertionSort, ← List.length_eq_zero_iff, hlength, Int.toNat_eq_zero]

end Selection

section Distinct

variable {settings : Settings}
  {universeSelector : List SymbolInfo → List (String × OrderBookSummary) → List String}
  {input : CycleInput} {symbols : List String} {bought : List (String × ℚ)}

theorem purchases_nodup
    (h : (symbols.filter fun symbol => decide (0 < markOf input symbol)).Nodup) :
    (purchases settings input symbols).Nodup := by
  unfold purchases
  split
  · have hmarked : (symbols.insertionSort (· ≤ ·)).filter (wanted settings input) =
        ((symbols.insertionSort (· ≤ ·)).filter fun symbol =>
          decide (0 < markOf input symbol)).filter (wanted settings input) := by
      rw [List.filter_filter]
      refine List.filter_congr fun symbol _ => ?_
      by_cases hwanted : wanted settings input symbol = true
      · have hmark := hwanted
        simp only [wanted, Bool.and_eq_true, decide_eq_true_eq] at hmark
        rw [hwanted, decide_eq_true hmark.1.1.1, Bool.and_self]
      · rw [Bool.eq_false_iff.mpr hwanted, Bool.false_and]
    rw [hmarked]
    exact (((List.perm_insertionSort _ symbols).filter _).nodup_iff.mpr h).filter _
  · exact List.nodup_nil

theorem bidOf_sublist {symbol : String} {qty : Except PlanError ℚ} {got : List (String × ℚ)}
    (h : qty.map (bidOf symbol) = .ok got) : (got.map Prod.fst).Sublist [symbol] := by
  cases qty with
  | error e => cases h
  | ok qty =>
    obtain rfl := Except.ok.inj h
    unfold bidOf
    split
    · exact List.Sublist.refl _
    · exact List.nil_sublist _

/-- Where no marked symbol is listed twice, no symbol is bid for twice. -/
theorem bids_distinct (hspelled : Spelled input)
    (honce : (symbols.filter fun symbol => decide (0 < markOf input symbol)).Nodup)
    (h : bids settings universeSelector input symbols = .ok bought) :
    (bought.map fun bid => canonicalSymbol bid.1).Nodup := by
  have hlisted : (bought.map Prod.fst).Nodup ∧ ∀ bid ∈ bought, 0 < markOf input bid.1 := by
    unfold bids at h
    split at h
    · have hsub := gather_sublist (fun place symbol got hgot => bidOf_sublist hgot) h
      refine ⟨hsub.nodup (purchases_nodup honce), fun bid hin => ?_⟩
      exact (mem_purchases (hsub.subset (List.mem_map_of_mem hin))).2.1
    · next scores _ =>
      obtain rfl := Except.ok.inj h
      constructor
      · rw [List.map_filterMap]
        refine List.Nodup.filterMap ?_ (List.nodup_dedup _)
        intro symbol other found hfound hother
        obtain ⟨bid, hbid, rfl⟩ := Option.map_eq_some_iff.mp hfound
        obtain ⟨bid', hbid', hsame⟩ := Option.map_eq_some_iff.mp hother
        obtain ⟨share, -, rfl⟩ := Option.map_eq_some_iff.mp hbid
        obtain ⟨share', -, rfl⟩ := Option.map_eq_some_iff.mp hbid'
        exact hsame.symm
      · intro bid hin
        obtain ⟨symbol, hsymbol, hbid⟩ := List.mem_filterMap.mp hin
        obtain ⟨-, -, rfl⟩ := Option.map_eq_some_iff.mp hbid
        have hmarked := (List.mem_filter.mp (List.mem_dedup.mp hsymbol)).2
        exact of_decide_eq_true (Bool.and_eq_true_iff.mp hmarked).2
  have hnormal : (bought.map fun bid => canonicalSymbol bid.1) = bought.map Prod.fst :=
    List.map_congr_left fun bid hin => marked_normal hspelled (hlisted.2 bid hin)
  rw [hnormal]
  exact hlisted.1

end Distinct

end CycleBids
