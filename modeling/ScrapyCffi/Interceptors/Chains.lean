import Mathlib.Init

/-!
# The spider-output chain

`_flatten_asyncgen`, `_ensure_asyncgen` and
`InterruptibleChainManager.process_spider_output_chain`,
`scrapy_cffi/interceptors/chains.py:98–128,266–322`. A generator is modelled by what it
yields before it ends or raises; a consumer that stops early never reaches what follows.
An interceptor is the function from an element to what its coroutine returns.
-/

namespace ScrapyCffi.Interceptors

universe u

/-- The values of `ATOMIC_TYPES`; `str` and `bytes` are one kind. `chains.py:100`. -/
inductive Element (α : Type u)
  | request (value : α)
  | item (value : α)
  | dict (value : α)
  | exception (value : α)
  | closeSignal (value : α)
  | text (value : α)
  | none
  deriving DecidableEq, Repr

/-- What an interceptor's coroutine returns. `unsupported` is any other object. -/
inductive Returned (α : Type u)
  | element (value : Element α)
  | iterable (values : List (Returned α))
  | asyncIterable (values : List (Returned α))
  | coroutine (value : Returned α)
  | unsupported

/-- What a generator yields, and whether it then raises `TypeError`. -/
structure Generated (α : Type u) where
  yields : List (Element α)
  raises : Bool
  deriving DecidableEq, Repr

/-- A generator that runs one generator and then another. -/
def Generated.append {α : Type u} (first second : Generated α) : Generated α :=
  if first.raises then first else ⟨first.yields ++ second.yields, second.raises⟩

mutual

/-- `_flatten_asyncgen`; a coroutine object is neither iterable nor atomic.
`chains.py:98–115`. -/
def flatten {α : Type u} : Returned α → Generated α
  | .element value => ⟨[value], false⟩
  | .iterable values => flattenAll values
  | .asyncIterable values => flattenAll values
  | .coroutine _ => ⟨[], true⟩
  | .unsupported => ⟨[], true⟩

/-- The loop over the values of an iterable. -/
def flattenAll {α : Type u} : List (Returned α) → Generated α
  | [] => ⟨[], false⟩
  | value :: values => (flatten value).append (flattenAll values)

end

/-- `_ensure_asyncgen`: a returned coroutine is awaited once; `chains.py:117–128`. -/
def ensure {α : Type u} : Returned α → Generated α
  | .coroutine value => flatten value
  | value => flatten value

/-- The `ChainResult`s of this chain, by their `next`. -/
inductive ChainResult (α : Type u)
  | reschedule (request : α)
  | pipeline (item : Element α)
  | exception (exception : α)
  | session (signal : α)
  deriving DecidableEq, Repr

/-- The errors of this chain. -/
inductive Raised
  | typeError
  | valueError
  deriving DecidableEq, Repr

/-- What the chain's own generator yields, and what it raises. -/
structure Emitted (α : Type u) where
  results : List (ChainResult α)
  raises : Option Raised
  deriving DecidableEq, Repr

/-- How the loop over one interceptor's results ends. -/
inductive Drained (α : Type u)
  | next (result : Element α)
  | stop (last : ChainResult α)
  deriving DecidableEq, Repr

/-- The loop over what an interceptor yields, assigning `result`; `chains.py:296–311`. -/
def drain {α : Type u} (result : Element α) : List (Element α) → Drained α
  | [] => .next result
  | .request value :: rest => drain (.request value) rest
  | .item value :: rest => drain (.item value) rest
  | .dict value :: rest => drain (.dict value) rest
  | .exception value :: _ => .stop (.exception value)
  | .closeSignal value :: _ => .stop (.session value)
  | .text _ :: rest => drain result rest
  | .none :: rest => drain result rest

/-- The dispatch after the last interceptor; `chains.py:313–322`. -/
def dispatch {α : Type u} : Element α → Emitted α
  | .none => ⟨[], none⟩
  | .request value => ⟨[.reschedule value], none⟩
  | .item value => ⟨[.pipeline (.item value)], none⟩
  | .dict value => ⟨[.pipeline (.dict value)], none⟩
  | .closeSignal value => ⟨[.session value], none⟩
  | .exception _ => ⟨[], some .valueError⟩
  | .text _ => ⟨[], some .valueError⟩

/-- An interceptor's `process_spider_output`. -/
abbrev Node (α : Type u) := Element α → Returned α

/-- The chain from one node on, in `prev` order; `chains.py:289–322`. -/
def outputFrom {α : Type u} : List (Node α) → Element α → Emitted α
  | [], result => dispatch result
  | node :: prev, result =>
    match node result with
    | .element .none => outputFrom prev result
    | processed =>
      match drain result (ensure processed).yields with
      | .stop last => ⟨[last], none⟩
      | .next next =>
        if (ensure processed).raises then ⟨[], some .typeError⟩ else outputFrom prev next

/-- `process_spider_output_chain` over `chain_list`, from `chain_tail` back. -/
def processSpiderOutputChain {α : Type u} (chainList : List (Node α)) (result : Element α) :
    Emitted α := outputFrom chainList.reverse result

end ScrapyCffi.Interceptors
