import Mathlib.Algebra.Order.Ring.Nat
import Mathlib.Data.List.DropRight
import Mathlib.Data.List.Infix

/-!
# The tails of a process's output

`_TailBuffer` and `_drain_stream` (`utils/ffmpeg.py:88–107,517–539`). A stream is the list of what
`read` returns, up to an empty chunk. What the callback raises depends on the chunks that it has
been given, the last one included.
-/

namespace ScrapyCffi.Ffmpeg

abbrev Bytes := List UInt8

/-- `_TailBuffer`: it holds no more bytes than its limit. -/
structure TailBuffer where
  limit : Nat
  data : Bytes
  bounded : data.length ≤ limit

namespace TailBuffer

/-- `_TailBuffer(limit)`. -/
def new (limit : Nat) : TailBuffer := ⟨limit, [], Nat.zero_le limit⟩

theorem length_drop_le (data : Bytes) (limit : Nat) :
    (data.drop (data.length - limit)).length ≤ limit := by
  rw [List.length_drop]
  omega

/-- `append`, `ffmpeg.py:96–103`. -/
def append (b : TailBuffer) (chunk : Bytes) : TailBuffer :=
  if b.limit = 0 then b
  else
    let data := b.data ++ chunk
    ⟨b.limit, data.drop (data.length - b.limit), length_drop_le data b.limit⟩

@[simp] theorem limit_append (b : TailBuffer) (chunk : Bytes) :
    (b.append chunk).limit = b.limit := by
  rw [append]
  split <;> rfl

theorem data_append (b : TailBuffer) (chunk : Bytes) :
    (b.append chunk).data = (b.data ++ chunk).rtake b.limit := by
  rw [append]
  split
  · next hlimit =>
    have hdata : b.data = [] := List.eq_nil_of_length_eq_zero (by have := b.bounded; omega)
    rw [hlimit, hdata, List.rtake_zero]
  · rfl

end TailBuffer

/-- The last bytes of what is kept and of more are those of all. -/
theorem rtake_rtake_append (data chunk : Bytes) (limit : Nat) :
    (data.rtake limit ++ chunk).rtake limit = (data ++ chunk).rtake limit := by
  simp only [List.rtake, List.drop_append, List.drop_drop, List.length_append, List.length_drop]
  congr 2 <;> omega

/-- What `_drain_stream` works with: `buffer`, the chunks that the callback was given, whether there
still is a callback, and `callback_errors`. -/
structure Drain (ε : Type) where
  buffer : TailBuffer
  shown : List Bytes
  watched : Bool
  callbackErrors : List ε

variable {ε : Type} (raises : List Bytes → Option ε)

namespace Drain

def start (limit : Nat) (watched : Bool) : Drain ε := ⟨.new limit, [], watched, []⟩

/-- A chunk was read, `ffmpeg.py:531–539`. -/
def chunkRead (d : Drain ε) (chunk : Bytes) : Drain ε :=
  let d := { d with buffer := d.buffer.append chunk }
  if d.watched then
    let shown := d.shown ++ [chunk]
    match raises shown with
    | none => { d with shown }
    | some error => { d with
        shown, watched := false, callbackErrors := d.callbackErrors ++ [error] }
  else d

end Drain

/-- `_drain_stream`, `ffmpeg.py:517–539`. -/
def drainStream (d : Drain ε) : List Bytes → Drain ε
  | [] => d
  | chunk :: rest => if chunk = [] then d else drainStream (d.chunkRead raises chunk) rest

/-- The callback was given the chunks up to the first at which it raised, and the error is kept. -/
def Told (chunks shown : List Bytes) (errors : List ε) : Prop :=
  (∀ part, part <+: shown → part ≠ [] → part ≠ shown → raises part = none) ∧ shown <+: chunks ∧
    ∃ error, errors = [error] ∧ raises shown = some error

/-- The callback was given all chunks and never raised. -/
def Quiet (chunks shown : List Bytes) (errors : List ε) : Prop :=
  shown = chunks ∧ errors = [] ∧ ∀ part, part <+: chunks → part ≠ [] → raises part = none

/-- What has become of the chunks that were read. -/
structure Drain.After (limit : Nat) (watched : Bool) (chunks : List Bytes) (d : Drain ε) :
    Prop where
  limit_eq : d.buffer.limit = limit
  data_eq : d.buffer.data = chunks.flatten.rtake limit
  unwatched : watched = false → d.watched = false ∧ d.shown = [] ∧ d.callbackErrors = []
  quiet : d.watched = true → Quiet raises chunks d.shown d.callbackErrors
  told : watched = true → d.watched = false → Told raises chunks d.shown d.callbackErrors

variable {raises} {limit : Nat} {watched : Bool} {chunks : List Bytes} {d : Drain ε}

theorem Drain.after_start (raises : List Bytes → Option ε) (limit : Nat) (watched : Bool) :
    (Drain.start limit watched : Drain ε).After raises limit watched [] := by
  constructor
  · rfl
  · exact (List.rtake_nil limit).symm
  · exact fun h ↦ ⟨h, rfl, rfl⟩
  · exact fun _ ↦ ⟨rfl, rfl, fun part hle hne ↦ absurd (List.prefix_nil.mp hle) hne⟩
  · intro h hno
    cases h.symm.trans hno

theorem Drain.buffer_chunkRead (d : Drain ε) (chunk : Bytes) :
    (d.chunkRead raises chunk).buffer = d.buffer.append chunk := by
  rw [Drain.chunkRead]
  dsimp only
  split
  · split <;> rfl
  · rfl

theorem Drain.chunkRead_unwatched (raises : List Bytes → Option ε) (h : d.watched = false)
    (chunk : Bytes) :
    d.chunkRead raises chunk = { d with buffer := d.buffer.append chunk } := by
  rw [Drain.chunkRead]
  dsimp only
  rw [h]
  rfl

/-- A list that begins a list with one more entry begins the list, or is all of it. -/
theorem prefix_concat {part : List Bytes} {chunk : Bytes} (h : part <+: chunks ++ [chunk]) :
    part <+: chunks ∨ part = chunks ++ [chunk] :=
  (List.prefix_concat_iff.mp h).symm

/-- The callback is given one more chunk, and does not raise. -/
theorem Drain.chunkRead_quiet (hwatched : d.watched = true)
    (hquiet : Quiet raises chunks d.shown d.callbackErrors) {chunk : Bytes}
    (h : raises (chunks ++ [chunk]) = none) :
    (d.chunkRead raises chunk).watched = true ∧ Quiet raises (chunks ++ [chunk])
      (d.chunkRead raises chunk).shown (d.chunkRead raises chunk).callbackErrors := by
  obtain ⟨hshown, herrors, hnone⟩ := hquiet
  have heq : d.chunkRead raises chunk =
      { d with buffer := d.buffer.append chunk, shown := chunks ++ [chunk] } := by
    rw [Drain.chunkRead]
    dsimp only
    rw [hwatched, hshown, h]
    rfl
  rw [heq]
  refine ⟨hwatched, rfl, herrors, fun part hle hne ↦ ?_⟩
  rcases prefix_concat hle with hold | rfl
  · exact hnone part hold hne
  · exact h

/-- The callback is given one more chunk, and raises. -/
theorem Drain.chunkRead_told (hwatched : d.watched = true)
    (hquiet : Quiet raises chunks d.shown d.callbackErrors) {chunk : Bytes} {error : ε}
    (h : raises (chunks ++ [chunk]) = some error) :
    (d.chunkRead raises chunk).watched = false ∧ Told raises (chunks ++ [chunk])
      (d.chunkRead raises chunk).shown (d.chunkRead raises chunk).callbackErrors := by
  obtain ⟨hshown, herrors, hnone⟩ := hquiet
  have heq : d.chunkRead raises chunk =
      ⟨d.buffer.append chunk, chunks ++ [chunk], false, [error]⟩ := by
    rw [Drain.chunkRead]
    dsimp only
    rw [hwatched, hshown, h, herrors]
    rfl
  rw [heq]
  refine ⟨rfl, fun part hle hne hother ↦ ?_, List.prefix_rfl, error, rfl, h⟩
  rcases prefix_concat hle with hold | hall
  · exact hnone part hold hne
  · exact absurd hall hother

theorem Drain.After.chunkRead (h : d.After raises limit watched chunks) (chunk : Bytes) :
    (d.chunkRead raises chunk).After raises limit watched (chunks ++ [chunk]) := by
  have hlimit : (d.chunkRead raises chunk).buffer.limit = limit := by
    rw [Drain.buffer_chunkRead, TailBuffer.limit_append, h.limit_eq]
  have hdata : (d.chunkRead raises chunk).buffer.data =
      (chunks ++ [chunk]).flatten.rtake limit := by
    rw [Drain.buffer_chunkRead, TailBuffer.data_append, h.limit_eq, h.data_eq,
      rtake_rtake_append, List.flatten_append, List.flatten_singleton]
  cases hwatched : d.watched with
  | false =>
    have heq := Drain.chunkRead_unwatched raises hwatched chunk
    refine ⟨hlimit, hdata, ?_, ?_, ?_⟩
    · rw [heq]
      exact h.unwatched
    · intro hyes
      rw [heq] at hyes
      cases hwatched.symm.trans hyes
    · intro hyes _
      rw [heq]
      obtain ⟨hfirst, hle, herror⟩ := h.told hyes hwatched
      exact ⟨hfirst, hle.trans (List.prefix_append _ _), herror⟩
  | true =>
    have hyes : watched = false → False := fun hno ↦ by
      cases hwatched.symm.trans (h.unwatched hno).1
    cases hraises : raises (chunks ++ [chunk]) with
    | none =>
      obtain ⟨hstill, hquiet⟩ := Drain.chunkRead_quiet hwatched (h.quiet hwatched) hraises
      refine ⟨hlimit, hdata, fun hno ↦ (hyes hno).elim, fun _ ↦ hquiet, fun _ hno ↦ ?_⟩
      cases hstill.symm.trans hno
    | some error =>
      obtain ⟨hended, htold⟩ := Drain.chunkRead_told hwatched (h.quiet hwatched) hraises
      refine ⟨hlimit, hdata, fun hno ↦ (hyes hno).elim, fun hstill ↦ ?_, fun _ _ ↦ htold⟩
      cases hended.symm.trans hstill

theorem Drain.After.drainStream (h : d.After raises limit watched chunks) (reads : List Bytes) :
    (drainStream raises d reads).After raises limit watched
      (chunks ++ reads.takeWhile (· ≠ [])) := by
  induction reads generalizing d chunks with
  | nil =>
    rw [List.takeWhile_nil, List.append_nil]
    exact h
  | cons chunk rest ih =>
    rw [Ffmpeg.drainStream]
    by_cases hempty : chunk = []
    · rw [if_pos hempty, List.takeWhile_cons_of_neg (by simp [hempty]), List.append_nil]
      exact h
    · rw [if_neg hempty, List.takeWhile_cons_of_pos (by simp [hempty]), List.append_cons]
      exact ih (h.chunkRead chunk)

/-- However the output comes in, a buffer has the last bytes of what was read, up to its limit, and
of the texts that were appended behind it. The callback is given the chunks in order up to the first
at which it raises, and only that error is kept. -/
theorem drainStream_tail (raises : List Bytes → Option ε) (limit : Nat) (watched : Bool)
    (reads notes : List Bytes) :
    let chunks := reads.takeWhile (· ≠ [])
    let d := drainStream raises (.start limit watched) reads
    (notes.foldl TailBuffer.append d.buffer).data =
        (chunks.flatten ++ notes.flatten).rtake limit ∧
      if watched then Quiet raises chunks d.shown d.callbackErrors ∨
        Told raises chunks d.shown d.callbackErrors
      else d.shown = [] ∧ d.callbackErrors = [] := by
  have hafter := (Drain.after_start raises limit watched).drainStream reads
  rw [List.nil_append] at hafter
  constructor
  · have hnotes : ∀ (b : TailBuffer) (data : Bytes), b.limit = limit → b.data = data.rtake limit →
        (notes.foldl TailBuffer.append b).data = (data ++ notes.flatten).rtake limit := by
      induction notes with
      | nil =>
        intro b data _ hdata
        rw [List.flatten_nil, List.append_nil]
        exact hdata
      | cons note rest ih =>
        intro b data hlimit hdata
        rw [List.foldl_cons, List.flatten_cons, ← List.append_assoc]
        apply ih
        · rw [TailBuffer.limit_append, hlimit]
        · rw [TailBuffer.data_append, hlimit, hdata, rtake_rtake_append]
    exact hnotes _ _ hafter.limit_eq hafter.data_eq
  · cases watched with
    | false =>
      obtain ⟨-, hshown, herrors⟩ := hafter.unwatched rfl
      exact ⟨hshown, herrors⟩
    | true =>
      cases hwatched : (drainStream raises (.start limit true) reads).watched with
      | true => exact .inl (hafter.quiet hwatched)
      | false => exact .inr (hafter.told rfl hwatched)

end ScrapyCffi.Ffmpeg
