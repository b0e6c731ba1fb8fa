import ScrapyCffi.Interceptors.Chains

/-!
# What the spider-output chain delivers

The purpose of the chain is to compose its interceptors as flat-maps. The loop of
`chains.py:290–312` instead keeps one `result`: it goes on with the last element an
interceptor yields, and with the unprocessed one when it yields none. Both coincide exactly
where every other result would have been dropped anyway.
-/

namespace ScrapyCffi.Interceptors

universe u

variable {α : Type u}

/-! ### The composition of the interceptors -/

/-- Requests, items and dicts. -/
def Element.isOutput : Element α → Bool
  | .request _ => true
  | .item _ => true
  | .dict _ => true
  | _ => false

mutual

/-- The elements a returned value stands for, however it is nested. -/
def results : Returned α → List (Element α)
  | .element value => [value]
  | .iterable values => resultsAll values
  | .asyncIterable values => resultsAll values
  | .coroutine value => results value
  | .unsupported => []

/-- The elements of the values of an iterable. -/
def resultsAll : List (Returned α) → List (Element α)
  | [] => []
  | value :: values => results value ++ resultsAll values

end

mutual

/-- Any nesting of requests, items and dicts. -/
def Returned.plain : Returned α → Bool
  | .element value => value.isOutput
  | .iterable values => plainAll values
  | .asyncIterable values => plainAll values
  | .coroutine value => value.plain
  | .unsupported => false

/-- Every value of an iterable is a nesting of requests, items and dicts. -/
def plainAll : List (Returned α) → Bool
  | [] => true
  | value :: values => value.plain && plainAll values

end

mutual

/-- No coroutine object occurs in the value. -/
def Returned.awaited : Returned α → Bool
  | .element _ => true
  | .iterable values => awaitedAll values
  | .asyncIterable values => awaitedAll values
  | .coroutine _ => false
  | .unsupported => true

/-- No coroutine object occurs in the values of an iterable. -/
def awaitedAll : List (Returned α) → Bool
  | [] => true
  | value :: values => value.awaited && awaitedAll values

end

/-- No coroutine object occurs below the one that is awaited. -/
def Returned.flattens : Returned α → Bool
  | .coroutine value => value.awaited
  | value => value.awaited

/-- The interceptors, in `prev` order, composed as flat-maps. -/
def compose : List (Node α) → Element α → List (Element α)
  | [], result => [result]
  | node :: prev, result =>
    match node result with
    | .element .none => compose prev result
    | processed => (results processed).flatMap (compose prev)

/-- On an output, the interceptor keeps it or returns a nesting of outputs. -/
def Admissible (node : Node α) : Prop :=
  ∀ result, result.isOutput = true → node result = .element .none ∨ (node result).plain = true

/-- For each interceptor that expands its element, the results and what is handed on. -/
def handedOn : List (Node α) → Element α → List (List (Element α) × Element α)
  | [], _ => []
  | node :: prev, result =>
    match node result with
    | .element .none => handedOn prev result
    | processed =>
      match drain result (ensure processed).yields with
      | .stop _ => []
      | .next next =>
        if (ensure processed).raises then [] else (results processed, next) :: handedOn prev next

/-- The chain delivers the composed results in order, and hands on processed elements only. -/
def LosesNothing (chainList : List (Node α)) (result : Element α) : Prop :=
  processSpiderOutputChain chainList result =
      ⟨(compose chainList.reverse result).flatMap fun output ↦ (dispatch output).results, none⟩ ∧
    ∀ handed ∈ handedOn chainList.reverse result, handed.2 ∈ handed.1

/-- Every expansion on the way is nonempty and flattens, and the interceptors that follow
drop all of it but its last element. -/
def LastSurvives : List (Node α) → Element α → Prop
  | [], _ => True
  | node :: prev, result =>
    match node result with
    | .element .none => LastSurvives prev result
    | processed => processed.flattens = true ∧ ∃ others last,
        results processed = others ++ [last] ∧ (∀ other ∈ others, compose prev other = []) ∧
          LastSurvives prev last

/-! ### Flattening -/

mutual

/-- An awaited nesting of outputs yields its elements. -/
theorem flatten_of_awaited {value : Returned α} (hp : value.plain = true)
    (ha : value.awaited = true) : flatten value = ⟨results value, false⟩ := by
  cases value with
  | element value => rfl
  | iterable values => exact flattenAll_of_awaited hp ha
  | asyncIterable values => exact flattenAll_of_awaited hp ha
  | coroutine value => cases ha
  | unsupported => cases hp

/-- Awaited nestings of outputs yield their elements in order. -/
theorem flattenAll_of_awaited {values : List (Returned α)} (hp : plainAll values = true)
    (ha : awaitedAll values = true) : flattenAll values = ⟨resultsAll values, false⟩ := by
  cases values with
  | nil => rfl
  | cons value values =>
    simp only [plainAll, awaitedAll, Bool.and_eq_true] at hp ha
    simp [flattenAll, resultsAll, Generated.append, flatten_of_awaited hp.1 ha.1,
      flattenAll_of_awaited hp.2 ha.2]

end

mutual

/-- A coroutine object below the top makes flattening raise. -/
theorem flatten_raises {value : Returned α} (hp : value.plain = true) :
    (flatten value).raises = !value.awaited := by
  cases value with
  | element value => rfl
  | iterable values => exact flattenAll_raises hp
  | asyncIterable values => exact flattenAll_raises hp
  | coroutine value => rfl
  | unsupported => cases hp

/-- A coroutine object among the values makes flattening raise. -/
theorem flattenAll_raises {values : List (Returned α)} (hp : plainAll values = true) :
    (flattenAll values).raises = !awaitedAll values := by
  cases values with
  | nil => rfl
  | cons value values =>
    simp only [plainAll, Bool.and_eq_true] at hp
    have hfirst := flatten_raises hp.1
    have hrest := flattenAll_raises hp.2
    cases hv : value.awaited <;> simp [flattenAll, awaitedAll, Generated.append, hfirst, hrest, hv]

end

mutual

/-- A nesting of outputs yields outputs only. -/
theorem isOutput_of_mem_flatten {value : Returned α} (hp : value.plain = true) :
    ∀ output ∈ (flatten value).yields, output.isOutput = true := by
  cases value with
  | element value => simpa [flatten, Returned.plain] using hp
  | iterable values => exact isOutput_of_mem_flattenAll hp
  | asyncIterable values => exact isOutput_of_mem_flattenAll hp
  | coroutine value => simp [flatten]
  | unsupported => cases hp

/-- Nestings of outputs yield outputs only. -/
theorem isOutput_of_mem_flattenAll {values : List (Returned α)} (hp : plainAll values = true) :
    ∀ output ∈ (flattenAll values).yields, output.isOutput = true := by
  cases values with
  | nil => simp [flattenAll]
  | cons value values =>
    simp only [plainAll, Bool.and_eq_true] at hp
    have hfirst := isOutput_of_mem_flatten hp.1
    have hrest := isOutput_of_mem_flattenAll hp.2
    intro output ho
    simp only [flattenAll, Generated.append] at ho
    split at ho
    · exact hfirst output ho
    · rcases List.mem_append.mp ho with hf | hr
      · exact hfirst output hf
      · exact hrest output hr

end

mutual

/-- A nesting of outputs stands for outputs only. -/
theorem isOutput_of_mem_results : ∀ value : Returned α, value.plain = true →
    ∀ output ∈ results value, output.isOutput = true
  | .element value, hp => by simpa [results, Returned.plain] using hp
  | .iterable values, hp => isOutput_of_mem_resultsAll values hp
  | .asyncIterable values, hp => isOutput_of_mem_resultsAll values hp
  | .coroutine value, hp => isOutput_of_mem_results value hp
  | .unsupported, hp => by cases hp

/-- Nestings of outputs stand for outputs only. -/
theorem isOutput_of_mem_resultsAll (values : List (Returned α)) (hp : plainAll values = true) :
    ∀ output ∈ resultsAll values, output.isOutput = true := by
  cases values with
  | nil => simp [resultsAll]
  | cons value values =>
    simp only [plainAll, Bool.and_eq_true] at hp
    intro output ho
    rcases List.mem_append.mp ho with hf | hr
    · exact isOutput_of_mem_results _ hp.1 output hf
    · exact isOutput_of_mem_resultsAll _ hp.2 output hr

end

/-- The generator of a nesting of outputs: its elements when it flattens, else `TypeError`,
and outputs only. -/
theorem ensure_spec {value : Returned α} (hp : value.plain = true) :
    (value.flattens = true → ensure value = ⟨results value, false⟩) ∧
      (ensure value).raises = !value.flattens ∧
      ∀ output ∈ (ensure value).yields, output.isOutput = true := by
  cases value with
  | coroutine value =>
    simp only [Returned.plain] at hp
    exact ⟨flatten_of_awaited hp, flatten_raises hp, isOutput_of_mem_flatten hp⟩
  | element value => exact ⟨flatten_of_awaited hp, flatten_raises hp, isOutput_of_mem_flatten hp⟩
  | iterable values => exact ⟨flatten_of_awaited hp, flatten_raises hp, isOutput_of_mem_flatten hp⟩
  | asyncIterable values =>
    exact ⟨flatten_of_awaited hp, flatten_raises hp, isOutput_of_mem_flatten hp⟩
  | unsupported => cases hp

/-- Over outputs the loop ends with the last of them. -/
theorem drain_outputs (result : Element α) {yields : List (Element α)}
    (h : ∀ output ∈ yields, output.isOutput = true) :
    drain result yields = .next (yields.getLast?.getD result) := by
  induction yields generalizing result with
  | nil => rfl
  | cons first rest ih =>
    have hrest := ih first fun output ho ↦ h output (by simp [ho])
    have hfirst := h first (by simp)
    have hdrain : drain result (first :: rest) = drain first rest := by
      cases first with
      | request value => rfl
      | item value => rfl
      | dict value => rfl
      | exception value => cases hfirst
      | closeSignal value => cases hfirst
      | text value => cases hfirst
      | none => cases hfirst
    rw [hdrain, hrest, List.getLast?_cons, Option.getD_some]

/-! ### One interceptor -/

/-- An admissible interceptor keeps the element, raises, or hands on the last result. -/
theorem node_cases {node : Node α} (hn : Admissible node) {result : Element α}
    (hr : result.isOutput = true) :
    node result = .element .none ∨
      (node result ≠ .element .none ∧ (node result).plain = true) := by
  by_cases hnone : node result = .element .none
  · exact .inl hnone
  · exact .inr ⟨hnone, (hn result hr).resolve_left hnone⟩

/-- A kept element goes to the next interceptor. -/
theorem outputFrom_keep {node : Node α} (prev : List (Node α)) {result : Element α}
    (h : node result = .element .none) :
    outputFrom (node :: prev) result = outputFrom prev result ∧
      compose (node :: prev) result = compose prev result ∧
      handedOn (node :: prev) result = handedOn prev result ∧
      (LastSurvives (node :: prev) result ↔ LastSurvives prev result) := by
  simp [outputFrom, compose, handedOn, LastSurvives, h]

/-- The composition and the condition at an expanding interceptor. -/
theorem compose_expand {node : Node α} (prev : List (Node α)) {result : Element α}
    (h : node result ≠ .element .none) :
    compose (node :: prev) result = (results (node result)).flatMap (compose prev) ∧
      (LastSurvives (node :: prev) result ↔ (node result).flattens = true ∧ ∃ others last,
        results (node result) = others ++ [last] ∧
          (∀ other ∈ others, compose prev other = []) ∧ LastSurvives prev last) := by
  constructor
  · rw [compose]
    split
    · next hn => exact absurd hn h
    · rfl
  · rw [LastSurvives]
    split
    · next hn => exact absurd hn h
    · rfl

/-- An expanding interceptor hands on its last result, or the element itself. -/
theorem outputFrom_expand {node : Node α} (prev : List (Node α)) {result : Element α}
    (h : node result ≠ .element .none) (hp : (node result).plain = true)
    (hf : (node result).flattens = true) :
    let next := (results (node result)).getLast?.getD result
    outputFrom (node :: prev) result = outputFrom prev next ∧
      handedOn (node :: prev) result = (results (node result), next) :: handedOn prev next := by
  intro next
  obtain ⟨hyields, -, houtputs⟩ := ensure_spec hp
  have hdrain := drain_outputs result houtputs
  rw [hyields hf] at hdrain
  constructor
  · rw [outputFrom]
    split
    · next hn => exact absurd hn h
    · simp [hyields hf, hdrain, next]
  · rw [handedOn]
    split
    · next hn => exact absurd hn h
    · simp [hyields hf, hdrain, next]

/-- A nested coroutine object makes the chain raise. -/
theorem outputFrom_raises {node : Node α} {prev : List (Node α)} {result : Element α}
    (h : node result ≠ .element .none) (hp : (node result).plain = true)
    (hf : (node result).flattens = false) :
    outputFrom (node :: prev) result = ⟨[], some .typeError⟩ := by
  obtain ⟨-, hraises, houtputs⟩ := ensure_spec hp
  rw [outputFrom]
  split
  · next hn => exact absurd hn h
  · simp [drain_outputs result houtputs, hraises, hf]

/-! ### The whole chain -/

/-- The chain's results for composed outputs. -/
def delivered (outputs : List (Element α)) : List (ChainResult α) :=
  outputs.flatMap fun output ↦ (dispatch output).results

/-- Every output is dispatched as one result. -/
theorem dispatch_output {output : Element α} (h : output.isOutput = true) :
    dispatch output = ⟨delivered [output], none⟩ ∧ (delivered [output]).length = 1 := by
  cases output <;> simp_all [delivered, dispatch, Element.isOutput]

/-- Only the empty list of outputs delivers nothing. -/
theorem delivered_eq_nil {outputs : List (Element α)}
    (h : ∀ output ∈ outputs, output.isOutput = true) (hn : delivered outputs = []) :
    outputs = [] := by
  cases outputs with
  | nil => rfl
  | cons first rest =>
    have hfirst := (dispatch_output (h first (by simp))).2
    simp only [delivered, List.flatMap_cons, List.append_eq_nil_iff] at hn
    simp [delivered, hn.1] at hfirst

/-- Composed interceptors yield outputs only. -/
theorem isOutput_of_mem_compose {nodes : List (Node α)} (hn : ∀ node ∈ nodes, Admissible node)
    {result : Element α} (hr : result.isOutput = true) :
    ∀ output ∈ compose nodes result, output.isOutput = true := by
  induction nodes generalizing result with
  | nil => simpa [compose] using hr
  | cons node prev ih =>
    have hprev : ∀ node ∈ prev, Admissible node := fun other ho ↦ hn other (by simp [ho])
    obtain hkeep | ⟨hexpand, hplain⟩ := node_cases (hn node (by simp)) hr
    · rw [(outputFrom_keep prev hkeep).2.1]
      exact ih hprev hr
    · rw [(compose_expand prev hexpand).1]
      intro output ho
      obtain ⟨between, hb, ho⟩ := List.mem_flatMap.mp ho
      exact ih hprev (isOutput_of_mem_results _ hplain between hb) output ho

/-- A run that ends and hands on processed elements delivers one of the composed results. -/
theorem outputFrom_single {nodes : List (Node α)} (hn : ∀ node ∈ nodes, Admissible node)
    {result : Element α} (hr : result.isOutput = true)
    (hends : (outputFrom nodes result).raises = none)
    (hhanded : ∀ handed ∈ handedOn nodes result, handed.2 ∈ handed.1) :
    ∃ output ∈ compose nodes result, outputFrom nodes result = ⟨delivered [output], none⟩ := by
  induction nodes generalizing result with
  | nil => exact ⟨result, by simp [compose], (dispatch_output hr).1⟩
  | cons node prev ih =>
    have hprev : ∀ node ∈ prev, Admissible node := fun other ho ↦ hn other (by simp [ho])
    obtain hkeep | ⟨hexpand, hplain⟩ := node_cases (hn node (by simp)) hr
    · obtain ⟨hrun, hcompose, hhands, -⟩ := outputFrom_keep prev hkeep
      rw [hrun] at hends ⊢
      rw [hhands] at hhanded
      rw [hcompose]
      exact ih hprev hr hends hhanded
    · cases hf : (node result).flattens with
      | false =>
        rw [outputFrom_raises hexpand hplain hf] at hends
        cases hends
      | true =>
        obtain ⟨hrun, hhands⟩ := outputFrom_expand prev hexpand hplain hf
        rw [hrun] at hends ⊢
        rw [hhands] at hhanded
        have hmem := hhanded _ (List.mem_cons_self ..)
        have hout := isOutput_of_mem_results _ hplain _ hmem
        obtain ⟨output, ho, he⟩ :=
          ih hprev hout hends fun handed hh ↦ hhanded handed (by simp [hh])
        refine ⟨output, ?_, he⟩
        rw [(compose_expand prev hexpand).1]
        exact List.mem_flatMap.mpr ⟨_, hmem, ho⟩

/-- Where only the last results survive, following them loses nothing. -/
theorem outputFrom_of_lastSurvives {nodes : List (Node α)}
    (hn : ∀ node ∈ nodes, Admissible node) {result : Element α} (hr : result.isOutput = true)
    (h : LastSurvives nodes result) :
    outputFrom nodes result = ⟨delivered (compose nodes result), none⟩ ∧
      ∀ handed ∈ handedOn nodes result, handed.2 ∈ handed.1 := by
  induction nodes generalizing result with
  | nil => exact ⟨(dispatch_output hr).1, by simp [handedOn]⟩
  | cons node prev ih =>
    have hprev : ∀ node ∈ prev, Admissible node := fun other ho ↦ hn other (by simp [ho])
    obtain hkeep | ⟨hexpand, hplain⟩ := node_cases (hn node (by simp)) hr
    · obtain ⟨hrun, hcompose, hhands, hsurvives⟩ := outputFrom_keep prev hkeep
      rw [hrun, hcompose, hhands]
      exact ih hprev hr (hsurvives.mp h)
    · obtain ⟨hcompose, hsurvives⟩ := compose_expand prev hexpand
      obtain ⟨hf, others, last, hresults, hdropped, hlast⟩ := hsurvives.mp h
      obtain ⟨hrun, hhands⟩ := outputFrom_expand prev hexpand hplain hf
      have hnext : (results (node result)).getLast?.getD result = last := by simp [hresults]
      have hout := isOutput_of_mem_results _ hplain last (by simp [hresults])
      obtain ⟨hrest, hhanded⟩ := ih hprev hout hlast
      rw [hnext] at hrun hhands
      have hothers : others.flatMap (compose prev) = [] := List.flatMap_eq_nil_iff.mpr hdropped
      have hall : compose (node :: prev) result = compose prev last := by
        rw [hcompose, hresults, List.flatMap_append, hothers]
        simp
      rw [hrun, hall, hhands]
      refine ⟨hrest, fun handed hh ↦ ?_⟩
      rcases List.mem_cons.mp hh with rfl | htail
      · simp [hresults]
      · exact hhanded handed htail

/-- A chain that loses nothing follows the only surviving results. -/
theorem lastSurvives_of_outputFrom {nodes : List (Node α)}
    (hn : ∀ node ∈ nodes, Admissible node) {result : Element α} (hr : result.isOutput = true)
    (hrun : outputFrom nodes result = ⟨delivered (compose nodes result), none⟩)
    (hhanded : ∀ handed ∈ handedOn nodes result, handed.2 ∈ handed.1) :
    LastSurvives nodes result := by
  induction nodes generalizing result with
  | nil => trivial
  | cons node prev ih =>
    have hprev : ∀ node ∈ prev, Admissible node := fun other ho ↦ hn other (by simp [ho])
    obtain hkeep | ⟨hexpand, hplain⟩ := node_cases (hn node (by simp)) hr
    · obtain ⟨hsame, hcompose, hhands, hsurvives⟩ := outputFrom_keep prev hkeep
      rw [hsame, hcompose] at hrun
      rw [hhands] at hhanded
      exact hsurvives.mpr (ih hprev hr hrun hhanded)
    · obtain ⟨hcompose, hsurvives⟩ := compose_expand prev hexpand
      cases hf : (node result).flattens with
      | false =>
        rw [outputFrom_raises hexpand hplain hf] at hrun
        cases congrArg Emitted.raises hrun
      | true =>
        obtain ⟨hsame, hhands⟩ := outputFrom_expand prev hexpand hplain hf
        rw [hhands] at hhanded
        have hmem := hhanded _ (List.mem_cons_self ..)
        obtain ⟨others, last, hresults⟩ :
            ∃ others last, results (node result) = others ++ [last] := by
          rcases List.eq_nil_or_concat (results (node result)) with hnil | hconcat
          · rw [hnil] at hmem
            cases hmem
          · simpa using hconcat
        have hnext : (results (node result)).getLast?.getD result = last := by simp [hresults]
        rw [hnext] at hsame hhanded
        have hrest : ∀ handed ∈ handedOn prev last, handed.2 ∈ handed.1 :=
          fun handed hh ↦ hhanded handed (List.mem_cons_of_mem _ hh)
        have hout : ∀ output ∈ results (node result), output.isOutput = true :=
          isOutput_of_mem_results _ hplain
        have hlast := hout last (by simp [hresults])
        rw [hsame, hcompose, hresults, List.flatMap_append] at hrun
        -- one result is delivered, and the last element already accounts for it
        obtain ⟨output, ho, hsingle⟩ :=
          outputFrom_single hprev hlast (congrArg Emitted.raises hrun) hrest
        have hdelivered : delivered [output] =
            delivered (others.flatMap (compose prev)) ++ delivered (compose prev last) := by
          have := congrArg Emitted.results (hsingle.symm.trans hrun)
          simpa [delivered] using this
        have hone := (dispatch_output (isOutput_of_mem_compose hprev hlast output ho)).2
        have hsome : delivered (compose prev last) ≠ [] := fun hnil ↦ by
          rw [delivered_eq_nil (isOutput_of_mem_compose hprev hlast) hnil] at ho
          cases ho
        have hnone : delivered (others.flatMap (compose prev)) = [] := by
          have hlength := congrArg List.length hdelivered
          have hpos := List.length_pos_iff.mpr hsome
          rw [List.length_append] at hlength
          exact List.length_eq_zero_iff.mp (by omega)
        have hothers : others.flatMap (compose prev) = [] := by
          refine delivered_eq_nil (fun y hy ↦ ?_) hnone
          obtain ⟨other, hother, hy⟩ := List.mem_flatMap.mp hy
          exact isOutput_of_mem_compose hprev (hout other (by simp [hresults, hother])) y hy
        refine hsurvives.mpr ⟨hf, others, last, hresults, List.flatMap_eq_nil_iff.mp hothers, ?_⟩
        refine ih hprev hlast ?_ hrest
        rw [hsingle, hdelivered, hnone, List.nil_append]

/-- For every chain of admissible interceptors and every output it is applied to, nothing is
lost exactly when each expansion on the way is nonempty, flattens, and has all but its last
element dropped by the interceptors that follow. -/
theorem losesNothing_iff (chainList : List (Node α)) (result : Element α)
    (hn : ∀ node ∈ chainList, Admissible node) (hr : result.isOutput = true) :
    LosesNothing chainList result ↔ LastSurvives chainList.reverse result := by
  have hn' : ∀ node ∈ chainList.reverse, Admissible node :=
    fun node hm ↦ hn node (List.mem_reverse.mp hm)
  constructor
  · rintro ⟨hrun, hhanded⟩
    exact lastSurvives_of_outputFrom hn' hr hrun hhanded
  · intro h
    exact outputFrom_of_lastSurvives hn' hr h

/-- An interceptor that splits one request into itself and an item. -/
def splitNode : Node Nat
  | .request value => .iterable [.element (.item value), .element (.request value)]
  | _ => .element .none

/-- The splitting interceptor is admissible. -/
theorem admissible_splitNode : Admissible splitNode := by
  intro result hr
  cases result with
  | request value => exact .inr rfl
  | item value => exact .inl rfl
  | dict value => exact .inl rfl
  | exception value => cases hr
  | closeSignal value => cases hr
  | text value => cases hr
  | none => cases hr

/-- The chain of the splitting interceptor loses the item of every request. -/
theorem not_losesNothing_split :
    (∀ node ∈ [splitNode], Admissible node) ∧ ¬LosesNothing [splitNode] (.request 0) := by
  refine ⟨by simpa using admissible_splitNode, fun h ↦ ?_⟩
  have hrun := h.1
  revert hrun
  decide

/-- A chain whose second interceptor drops the items that its first one adds. -/
theorem losesNothing_split_filter :
    let filterNode : Node Nat := fun result ↦
      if result = .item 0 then .iterable [] else .element .none
    LosesNothing [filterNode, splitNode] (.request 0) ↔
      LastSurvives [splitNode, filterNode] (.request 0) := by
  intro filterNode
  refine losesNothing_iff [filterNode, splitNode] (.request 0) ?_ rfl
  intro node hm
  rcases List.mem_cons.mp hm with rfl | hm
  · intro result _
    by_cases he : result = .item 0
    · exact .inr (by simp [filterNode, he, Returned.plain, plainAll])
    · exact .inl (by simp [filterNode, he])
  · obtain rfl := List.mem_singleton.mp hm
    exact admissible_splitNode

end ScrapyCffi.Interceptors
