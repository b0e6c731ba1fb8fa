import Mathlib.Data.Finset.Basic
import ScrapyCffi.Base.Service

/-!
# The in-memory duplicate filter

`MemoryDupeFilter` (`scrapy_cffi/dupefilter/base.py:42–63`). A request is what the filters
read of it: the bytes that `create_bytes` gives and `dont_filter`. The digest of
`get_fingerprint` is a parameter.
-/

namespace ScrapyCffi.Dupefilter

open ScrapyCffi.Base

universe u

variable {β δ : Type u} [DecidableEq δ]

/-- A request as the duplicate filters read it. -/
structure Request (β : Type u) where
  bytes : β
  dontFilter : Bool
  deriving DecidableEq, Repr

/-- The two operations of a duplicate filter. -/
inductive Operation (β : Type u)
  | requestSeen (request : Request β)
  | markSent (request : Request β)
  deriving DecidableEq, Repr

/-- The request of an operation. -/
def Operation.request : Operation β → Request β
  | .requestSeen request | .markSent request => request

/-- The two sets of `MemoryDupeFilter`. -/
structure MemoryDupeFilter (δ : Type u) where
  newSeen : Finset δ
  sentSeen : Finset δ

/-- A new filter. -/
def MemoryDupeFilter.empty : MemoryDupeFilter δ := ⟨∅, ∅⟩

/-- `request_seen`. -/
def MemoryDupeFilter.requestSeen (filter : MemoryDupeFilter δ) (fingerprint : δ) :
    Bool × MemoryDupeFilter δ :=
  if fingerprint ∈ filter.newSeen then (true, filter)
  else (decide (fingerprint ∈ filter.sentSeen),
    { filter with newSeen := insert fingerprint filter.newSeen })

/-- `mark_sent`. -/
def MemoryDupeFilter.markSent (digest : β → δ) (filter : MemoryDupeFilter δ)
    (request : Request β) : MemoryDupeFilter δ :=
  if request.dontFilter then filter
  else { filter with sentSeen := insert (digest request.bytes) filter.sentSeen }

/-- `MemoryDupeFilter` as a service; a mark has no answer. -/
def memory (digest : β → δ) : Service (MemoryDupeFilter δ) (Operation β) (Option Bool)
  | filter, .requestSeen request =>
    let (isSeen, next) := filter.requestSeen (digest request.bytes)
    (some isSeen, next)
  | filter, .markSent request => (none, filter.markSent digest request)

namespace MemoryDupeFilter

variable {filter : MemoryDupeFilter δ} {fingerprint other : δ} {digest : β → δ}
  {request : Request β}

/-- The filter rejects what it has seen or marked. -/
theorem requestSeen_fst : (filter.requestSeen fingerprint).1 = true ↔
    fingerprint ∈ filter.newSeen ∨ fingerprint ∈ filter.sentSeen := by
  unfold requestSeen
  split
  · next h => simp [h]
  · next h => simp [h]

/-- A check records its fingerprint. -/
@[simp] theorem mem_newSeen_requestSeen : other ∈ (filter.requestSeen fingerprint).2.newSeen ↔
    other = fingerprint ∨ other ∈ filter.newSeen := by
  unfold requestSeen
  split
  · next h =>
    refine ⟨.inr, fun ho ↦ ho.elim (fun he ↦ ?_) id⟩
    exact he ▸ h
  · exact Finset.mem_insert

@[simp] theorem sentSeen_requestSeen :
    (filter.requestSeen fingerprint).2.sentSeen = filter.sentSeen := by
  unfold requestSeen
  split <;> rfl

@[simp] theorem newSeen_markSent :
    (filter.markSent digest request).newSeen = filter.newSeen := by
  unfold markSent
  split <;> rfl

/-- A mark records its fingerprint unless the request is not filtered. -/
@[simp] theorem mem_sentSeen_markSent : other ∈ (filter.markSent digest request).sentSeen ↔
    (request.dontFilter = false ∧ other = digest request.bytes) ∨ other ∈ filter.sentSeen := by
  unfold markSent
  split
  · next h => simp [h]
  · next h => simp [h]

end MemoryDupeFilter
end ScrapyCffi.Dupefilter
