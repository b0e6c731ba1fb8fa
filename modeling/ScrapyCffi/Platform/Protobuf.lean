import ScrapyCffi.Base.Except
import ScrapyCffi.Base.Frames

/-!
# gRPC framing

`_GrpcFramingCodec`, `platform/protobuf.py:62–145`: a flag of one byte, a length of four, and the
payload. The payload codec of an adapter and `gzip` are parameters.
-/

namespace ScrapyCffi.Platform

open ScrapyCffi.Base

/-- `ValueError` with its text, or what the payload codec or `gzip` raises. -/
inductive GrpcError (ε : Type)
  | valueError (message : String)
  | codec (e : ε)
  deriving DecidableEq

/-- What the concrete adapter and `gzip` provide. -/
structure PayloadCodec (M T ε : Type) where
  encodeMessage : M → T → Except ε (List UInt8)
  decodeMessage : List UInt8 → Except ε (M × T)
  compress : List UInt8 → List UInt8
  decompress : List UInt8 → Except ε (List UInt8)

variable {M T ε : Type} (codec : PayloadCodec M T ε)

/-- An error of the codec is let through. -/
def raised {α : Type} : Except ε α → Except (GrpcError ε) α
  | .ok a => .ok a
  | .error e => .error (.codec e)

/-- `encode_message_length`, `protobuf.py:81–86`. -/
def encodeMessageLength (length : Nat) : Except (GrpcError ε) (List UInt8) :=
  if length ≤ 0xFFFFFFFF then .ok (toBytesBig 4 length)
  else .error (.valueError "Message length must be between 0 and 2^32-1")

/-- `decode_message_length`, `protobuf.py:88–93`. -/
def decodeMessageLength (data : List UInt8) : Except (GrpcError ε) Nat :=
  if data.length ≠ 4 then .error (.valueError "Expected 4 bytes for message length")
  else .ok (ofBytesBig data)

/-- The payload of a frame. -/
def payload (isGzip : Bool) (encoded : List UInt8) : List UInt8 :=
  if isGzip then codec.compress encoded else encoded

/-- `grpc_encode`, `protobuf.py:95–109`. -/
def grpcEncode (isGzip : Bool) (message : M × T) : Except (GrpcError ε) (List UInt8) := do
  let encoded ← raised (codec.encodeMessage message.1 message.2)
  let encoded := payload codec isGzip encoded
  let length ← encodeMessageLength encoded.length
  return [if isGzip then 1 else 0] ++ length ++ encoded

/-- `grpc_stream_encode`, `protobuf.py:111–120`. -/
def grpcStreamEncode (isGzip : Bool) : List (M × T) → Except (GrpcError ε) (List UInt8)
  | [] => .ok []
  | message :: rest => do
    let frame ← grpcEncode codec isGzip message
    return frame ++ (← grpcStreamEncode isGzip rest)

/-- The message of a payload, `protobuf.py:142–144`. -/
def readPayload (compression : UInt8) (payload : List UInt8) : Except (GrpcError ε) (M × T) := do
  let payload ← raised (if compression = 1 then codec.decompress payload else .ok payload)
  raised (codec.decodeMessage payload)

/-- One round of the loop of `grpc_decode` on the bytes from the offset on,
`protobuf.py:127–144`. -/
def readFrame : List UInt8 → Except (GrpcError ε) ((M × T) × List UInt8)
  | [] => .error (.valueError "Incomplete grpc message header")
  | compression :: data =>
    if data.length < 4 then .error (.valueError "Incomplete grpc message header")
    else if compression ≠ 0 ∧ compression ≠ 1 then
      .error (.valueError ("Unsupported grpc compression flag: " ++ toString compression.toNat))
    else do
      let messageLength ← decodeMessageLength (data.take 4)
      if (data.drop 4).length < messageLength then
        .error (.valueError "Incomplete grpc message body")
      else do
        let message ← readPayload codec compression ((data.drop 4).take messageLength)
        return (message, (data.drop 4).drop messageLength)

/-- The result of `grpc_decode`: a single message, or a list. -/
inductive GrpcResult (μ : Type)
  | message (m : μ)
  | messages (ms : List μ)

/-- `results[0] if len(results) == 1 else results`. -/
def GrpcResult.of {μ : Type} : List μ → GrpcResult μ
  | [m] => .message m
  | ms => .messages ms

/-! ## Frames -/

variable {codec} {isGzip : Bool}

/-- What a round of the loop reads is followed by fewer bytes. -/
theorem readFrame_shorter {data rest : List UInt8} {message : M × T}
    (h : readFrame codec data = .ok (message, rest)) : rest.length < data.length := by
  cases data with
  | nil => cases h
  | cons compression data =>
    rw [readFrame] at h
    split at h
    · cases h
    · split at h
      · cases h
      · obtain ⟨messageLength, -, h⟩ := bind_eq_ok.mp h
        split at h
        · cases h
        · obtain ⟨decoded, -, h⟩ := bind_eq_ok.mp h
          cases h
          simp only [List.length_drop, List.length_cons]
          omega

/-- The loop of `grpc_decode` as a reader of frames. -/
def frameReader (codec : PayloadCodec M T ε) : FrameReader UInt8 (M × T) (GrpcError ε) where
  read := readFrame codec
  shorter := readFrame_shorter

@[simp] theorem frameReader_read : (frameReader codec).read = readFrame codec := rfl

/-- `grpc_decode`, `protobuf.py:122–145`. -/
def grpcDecode (codec : PayloadCodec M T ε) (data : List UInt8) :
    Except (GrpcError ε) (GrpcResult (M × T)) :=
  ((frameReader codec).readAll data).map GrpcResult.of

/-- The bytes of a frame. -/
def frameBytes (isGzip : Bool) (body : List UInt8) : List UInt8 :=
  (if isGzip then 1 else 0) :: (toBytesBig 4 body.length ++ body)

/-- A frame is written when the message is encoded and its payload is not too long. -/
theorem grpcEncode_eq_ok {message : M × T} {frame : List UInt8} :
    grpcEncode codec isGzip message = .ok frame ↔
      ∃ encoded, codec.encodeMessage message.1 message.2 = .ok encoded ∧
        (payload codec isGzip encoded).length < 2 ^ 32 ∧
        frameBytes isGzip (payload codec isGzip encoded) = frame := by
  rw [grpcEncode]
  cases codec.encodeMessage message.1 message.2 with
  | error e => simp [raised, bind, Except.bind]
  | ok encoded =>
    have hlength : (payload codec isGzip encoded).length < 2 ^ 32 ↔
        (payload codec isGzip encoded).length ≤ 0xFFFFFFFF := by omega
    simp only [Except.ok.injEq, exists_eq_left', hlength]
    by_cases h : (payload codec isGzip encoded).length ≤ 0xFFFFFFFF
    · simp [raised, encodeMessageLength, bind, Except.bind, pure, Except.pure, h, frameBytes]
    · simp [raised, encodeMessageLength, bind, Except.bind, h]

/-- A round of the loop on a whole header: the flag and the length of the payload. -/
theorem readFrame_header {body : List UInt8} {length : Nat} (hlength : length < 2 ^ 32) :
    readFrame codec ((if isGzip then 1 else 0) :: (toBytesBig 4 length ++ body)) =
      if body.length < length then .error (.valueError "Incomplete grpc message body")
      else do
        let message ← readPayload codec (if isGzip then 1 else 0) (body.take length)
        return (message, body.drop length) := by
  have hlong : ¬ (toBytesBig 4 length ++ body).length < 4 := by
    rw [List.length_append, length_toBytesBig]
    omega
  have hflag : ¬ ((if isGzip then 1 else 0 : UInt8) ≠ 0 ∧ (if isGzip then 1 else 0 : UInt8) ≠ 1) := by
    cases isGzip <;> decide
  have htake : (toBytesBig 4 length ++ body).take 4 = toBytesBig 4 length :=
    List.take_left' (length_toBytesBig 4 length)
  have hdrop : (toBytesBig 4 length ++ body).drop 4 = body :=
    List.drop_left' (length_toBytesBig 4 length)
  have hread : decodeMessageLength (toBytesBig 4 length) = (.ok length : Except (GrpcError ε) Nat) := by
    rw [decodeMessageLength, length_toBytesBig, ofBytesBig_toBytesBig hlength]
    rfl
  rw [readFrame, if_neg hlong, if_neg hflag, htake, hdrop, hread]
  rfl

/-- The codec and `gzip` give back what they encode. -/
def PayloadCodec.Inverse (codec : PayloadCodec M T ε) (message : M × T) : Prop :=
  ∀ encoded, codec.encodeMessage message.1 message.2 = .ok encoded →
    codec.decodeMessage encoded = .ok message ∧
      codec.decompress (codec.compress encoded) = .ok encoded

/-- A message is read from its payload. -/
theorem readPayload_payload {message : M × T} {encoded : List UInt8}
    (hinverse : codec.Inverse message)
    (hencoded : codec.encodeMessage message.1 message.2 = .ok encoded) :
    readPayload codec (if isGzip then 1 else 0) (payload codec isGzip encoded) = .ok message := by
  obtain ⟨hdecode, hgzip⟩ := hinverse encoded hencoded
  cases isGzip
  · simp [readPayload, payload, raised, hdecode, bind, Except.bind]
  · simp [readPayload, payload, raised, hdecode, hgzip, bind, Except.bind]

/-- An error is a `ValueError`. -/
def IsValueError (e : GrpcError ε) : Prop := ∃ text, e = .valueError text

/-- What `grpc_encode` writes is a frame. -/
theorem isFrame_of_grpcEncode {message : M × T} {frame : List UInt8}
    (hinverse : codec.Inverse message) (h : grpcEncode codec isGzip message = .ok frame) :
    IsFrame (frameReader codec) IsValueError frame message := by
  obtain ⟨encoded, hencoded, hlength, rfl⟩ := grpcEncode_eq_ok.mp h
  constructor
  · intro rest
    rw [frameReader_read, frameBytes, List.cons_append, List.append_assoc, readFrame_header hlength,
      if_neg (by simp), List.take_left, List.drop_left, readPayload_payload hinverse hencoded]
    rfl
  · intro part hpart hnil hne
    rw [frameReader_read]
    rw [frameBytes, ← List.cons_append] at hpart hne
    rcases prefix_append_cases hpart with ⟨hheader, hshort⟩ | ⟨body, rfl, hbody⟩
    · -- the cut falls inside the header
      obtain ⟨compression, data, rfl⟩ := List.exists_cons_of_ne_nil hnil
      have hlt := Nat.lt_of_le_of_ne hheader.length_le fun heq ↦ hshort (hheader.eq_of_length heq)
      rw [List.length_cons, List.length_cons, length_toBytesBig] at hlt
      exact ⟨_, ⟨_, rfl⟩, by rw [readFrame, if_pos (by omega)]⟩
    · -- the cut falls inside the payload
      have hlt := Nat.lt_of_le_of_ne hbody.length_le fun heq ↦ hne (by rw [hbody.eq_of_length heq])
      exact ⟨_, ⟨_, rfl⟩, by rw [List.cons_append, readFrame_header hlength, if_pos hlt]⟩

/-! ## Streams -/

/-- A stream is written when each of its frames is. -/
theorem grpcStreamEncode_eq_ok {messages : List (M × T)} {out : List UInt8} :
    grpcStreamEncode codec isGzip messages = .ok out ↔
      ∃ frames, List.Forall₂ (fun message frame ↦ grpcEncode codec isGzip message = .ok frame)
        messages frames ∧ frames.flatten = out := by
  induction messages generalizing out with
  | nil => simp [grpcStreamEncode]
  | cons message rest ih =>
    rw [grpcStreamEncode]
    constructor
    · intro h
      obtain ⟨frame, hframe, h⟩ := bind_eq_ok.mp h
      obtain ⟨tail, htail, h⟩ := bind_eq_ok.mp h
      cases h
      obtain ⟨frames, hframes, rfl⟩ := ih.mp htail
      exact ⟨frame :: frames, .cons hframe hframes, rfl⟩
    · rintro ⟨_, hall, rfl⟩
      cases hall with
      | cons hframe hframes =>
        exact bind_eq_ok.mpr ⟨_, hframe, bind_eq_ok.mpr ⟨_, ih.mpr ⟨_, hframes, rfl⟩, rfl⟩⟩

/-- The frames of a stream, each with its message. -/
theorem isFrames_of_grpcEncode {messages : List (M × T)} {frames : List (List UInt8)}
    (hinverse : ∀ message ∈ messages, codec.Inverse message)
    (h : List.Forall₂ (fun message frame ↦ grpcEncode codec isGzip message = .ok frame)
      messages frames) :
    List.Forall₂ (IsFrame (frameReader codec) IsValueError) frames messages := by
  induction h with
  | nil => exact .nil
  | cons hframe _ ih =>
    obtain ⟨hfirst, hrest⟩ := List.forall_mem_cons.mp hinverse
    exact .cons (isFrame_of_grpcEncode hfirst hframe) (ih hrest)

/-- A stream of frames is decoded as its messages. -/
theorem grpcDecode_of_frames {messages : List (M × T)} {out : List UInt8}
    (hinverse : ∀ message ∈ messages, codec.Inverse message)
    (h : grpcStreamEncode codec isGzip messages = .ok out) :
    grpcDecode codec out = .ok (GrpcResult.of messages) := by
  obtain ⟨frames, hframes, rfl⟩ := grpcStreamEncode_eq_ok.mp h
  rw [grpcDecode, FrameReader.readAll_flatten (isFrames_of_grpcEncode hinverse hframes)]
  rfl

/-- A stream of messages whose payloads have a length of four bytes is written. What is written
is decoded as the messages; a prefix of it is decoded if and only if it consists of whole frames,
and then as their messages, and any other prefix raises `ValueError`. -/
theorem grpcDecode_grpcStreamEncode (codec : PayloadCodec M T ε) (isGzip : Bool)
    (messages : List (M × T)) (hinverse : ∀ message ∈ messages, codec.Inverse message) :
    ((∀ message ∈ messages, ∃ encoded, codec.encodeMessage message.1 message.2 = .ok encoded ∧
        (payload codec isGzip encoded).length < 2 ^ 32) →
      ∃ out, grpcStreamEncode codec isGzip messages = .ok out) ∧
    ∀ out, grpcStreamEncode codec isGzip messages = .ok out →
      grpcDecode codec out = .ok (GrpcResult.of messages) ∧
      ∀ cut, cut <+: out →
        (∃ n, grpcStreamEncode codec isGzip (messages.take n) = .ok cut ∧
          grpcDecode codec cut = .ok (GrpcResult.of (messages.take n))) ∨
        (∀ n, grpcStreamEncode codec isGzip (messages.take n) ≠ .ok cut) ∧
          ∃ text, grpcDecode codec cut = .error (.valueError text) := by
  constructor
  · intro hlength
    clear hinverse
    induction messages with
    | nil => exact ⟨[], rfl⟩
    | cons message rest ih =>
      obtain ⟨⟨encoded, hencoded, hshort⟩, hrest⟩ := List.forall_mem_cons.mp hlength
      obtain ⟨out, hout⟩ := ih hrest
      have hframe := grpcEncode_eq_ok.mpr ⟨encoded, hencoded, hshort, rfl⟩
      exact ⟨_, bind_eq_ok.mpr ⟨_, hframe, bind_eq_ok.mpr ⟨out, hout, rfl⟩⟩⟩
  · intro out hout
    refine ⟨grpcDecode_of_frames hinverse hout, ?_⟩
    intro cut hcut
    have htake : ∀ n, ∀ message ∈ messages.take n, codec.Inverse message :=
      fun n message hm ↦ hinverse message (List.mem_of_mem_take hm)
    obtain ⟨frames, hframes, rfl⟩ := grpcStreamEncode_eq_ok.mp hout
    rcases FrameReader.readAll_of_prefix (isFrames_of_grpcEncode hinverse hframes) hcut with
      ⟨n, -, rfl⟩ | ⟨e, ⟨text, rfl⟩, hread⟩
    · have hn : grpcStreamEncode codec isGzip (messages.take n) = .ok (frames.take n).flatten :=
        grpcStreamEncode_eq_ok.mpr ⟨_, List.forall₂_take n hframes, rfl⟩
      exact .inl ⟨n, hn, grpcDecode_of_frames (htake n) hn⟩
    · have herror : grpcDecode codec cut = .error (.valueError text) := by
        rw [grpcDecode, hread]
        rfl
      refine .inr ⟨fun n hn ↦ ?_, text, herror⟩
      have hok := grpcDecode_of_frames (htake n) hn
      rw [herror] at hok
      cases hok

/-- Messages that are their own bytes, and a `gzip` that marks what it compressed. -/
def plainCodec : PayloadCodec (List UInt8) Unit Unit where
  encodeMessage message _ := .ok message
  decodeMessage data := .ok (data, ())
  compress data := 31 :: data
  decompress
    | 31 :: data => .ok data
    | _ => .error ()

/-- A compressed stream of two messages, one of them empty. -/
theorem grpcDecode_two_messages :
    grpcStreamEncode plainCodec true [([7], ()), ([], ())] =
        .ok [1, 0, 0, 0, 2, 31, 7, 1, 0, 0, 0, 1, 31] ∧
      grpcDecode plainCodec [1, 0, 0, 0, 2, 31, 7, 1, 0, 0, 0, 1, 31] =
        .ok (.messages [([7], ()), ([], ())]) := by
  have h : grpcStreamEncode plainCodec true [([7], ()), ([], ())] =
      .ok [1, 0, 0, 0, 2, 31, 7, 1, 0, 0, 0, 1, 31] := by decide
  have hinverse : ∀ message ∈ [(([7] : List UInt8), ()), ([], ())],
      plainCodec.Inverse message := by
    intro message _ encoded hencoded
    cases hencoded
    exact ⟨rfl, rfl⟩
  exact ⟨h, ((grpcDecode_grpcStreamEncode plainCodec true _ hinverse).2 _ h).1⟩

end ScrapyCffi.Platform
