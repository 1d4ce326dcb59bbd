import Nenes.OperationServerHandler

set_option autoImplicit false

namespace Nenes

open ByteBuf OperationServerHandler

-- The header rules of channelRead0 on their own: header text, announced data
-- length and the bytes that stay readable.
def decodeHeader (bytes : Bytes) : Option (JString × Int × Bytes) :=
  match readInt bytes with
  | none => none
  | some (headerSize, buf) =>
      if headerSize ≥ 100 ∨ headerSize < 0 then none
      else match readBytes headerSize buf with
        | none => none
        | some (header, buf) =>
            match readLong buf with
            | none => none
            | some (dataSize, buf) => some (toStringUtf8 header, dataSize, buf)

def joinHeader (bytes : Bytes) : Option (Int × Bytes) :=
  match decodeHeader bytes with
  | none => none
  | some (headerBody, dataSize, buf) => if startsWith headerBody opCodeJoin then some (dataSize, buf) else none

inductive Delivery where
  | ignored
  | stored (data : Bytes)
  | joined (data : Bytes)
deriving DecidableEq, Repr

def toRead (offset dataSize : Int) (buf : Bytes) : Int := toInt (min (toLong (dataSize - offset)) buf.length)

def delivery (offset : Int) (bytes : Bytes) : Delivery :=
  match joinHeader bytes with
  | none => .ignored
  | some (dataSize, buf) =>
      match readBytes (toRead offset dataSize buf) buf with
      | none => .ignored
      | some (data, _) => if toLong (offset + toRead offset dataSize buf) ≥ dataSize then .joined data else .stored data

-- The fields a later call depends on. The others are overwritten before they
-- are read again.
structure Session where
  offset : Int
  operationData : JString
  agentName : JString
deriving DecidableEq, Repr

def OperationServerHandler.session (this : OperationServerHandler) : Session :=
  ⟨this.offset, this.operationData, this.agentName⟩

def Session.receive (id : JString) (session : Session) : Delivery → Session × List Effect
  | .ignored => (session, [])
  | .stored data =>
      (⟨toLong (session.offset + data.length), session.operationData ++ toStringUtf8 data, session.agentName⟩, [])
  | .joined data =>
      let name := nameOf (session.operationData ++ toStringUtf8 data) id
      (⟨0, [], name⟩, [.put name, .publishEvent ⟨.connected, name, []⟩])

theorem receive_unjoined (id : JString) (session : Session) (delivery : Delivery) (unjoined : ∀ data, delivery ≠ .joined data) :
    (session.receive id delivery).1.agentName = session.agentName ∧ (session.receive id delivery).2 = [] := by
  cases delivery with
  | joined data => exact absurd rfl (unjoined data)
  | _ => exact ⟨rfl, rfl⟩

structure ReadSpec (id : JString) (this : OperationServerHandler) (msg : Chunk) (outcome : Outcome) : Prop where
  refines : (outcome.handler.session, outcome.effects) = this.session.receive id (delivery this.offset msg.bytes)
  returns : ∀ text dataSize buf, decodeHeader msg.bytes = some (text, dataSize, buf) →
    (startsWith text opCodeJoin = true → readBytes (toRead this.offset dataSize buf) buf ≠ none) → outcome.threw = false

theorem read_spec_undecoded (id : JString) (this : OperationServerHandler) (msg : Chunk) (outcome : Outcome)
    (undecoded : decodeHeader msg.bytes = none) (quiet : (outcome.handler.session, outcome.effects) = (this.session, [])) :
    ReadSpec id this msg outcome where
  refines := by
    rw [quiet]
    simp [delivery, joinHeader, undecoded, Session.receive]
  returns := by simp [undecoded]

theorem channel_read_spec (id : JString) (this : OperationServerHandler) (msg : Chunk) :
    ReadSpec id this msg (channelRead0 id this msg) := by
  cases first : readInt msg.bytes with
  | none => exact read_spec_undecoded id this msg _ (by simp [decodeHeader, first]) (by simp [channelRead0, first, session])
  | some read =>
      obtain ⟨headerSize, buf⟩ := read
      by_cases bad : headerSize ≥ 100 ∨ headerSize < 0
      · exact read_spec_undecoded id this msg _ (by simp [decodeHeader, first, bad])
          (by simp [channelRead0, first, bad, session])
      cases second : readBytes headerSize buf with
      | none =>
          exact read_spec_undecoded id this msg _ (by simp [decodeHeader, first, bad, second])
            (by simp [channelRead0, first, bad, second, session])
      | some read =>
          obtain ⟨header, buf⟩ := read
          cases third : readLong buf with
          | none =>
              exact read_spec_undecoded id this msg _ (by simp [decodeHeader, first, bad, second, third])
                (by simp [channelRead0, first, bad, second, third, session])
          | some read =>
              obtain ⟨dataSize, buf⟩ := read
              have decoded : decodeHeader msg.bytes = some (toStringUtf8 header, dataSize, buf) := by
                simp [decodeHeader, first, bad, second, third]
              cases join : startsWith (toStringUtf8 header) opCodeJoin with
              | false =>
                  constructor
                  · simp [channelRead0, delivery, joinHeader, decoded, first, bad, second, third, join, Session.receive, session]
                  · simp [channelRead0, first, bad, second, third, join]
              | true =>
                  cases fourth : readBytes (toInt (min (toLong (dataSize - this.offset)) buf.length)) buf with
                  | none =>
                      constructor
                      · simp [channelRead0, delivery, joinHeader, decoded, toRead, first, bad, second, third, join, fourth,
                          Session.receive, session]
                      · intro text size left same readable
                        rw [decoded, Option.some.injEq, Prod.mk.injEq, Prod.mk.injEq] at same
                        obtain ⟨rfl, rfl, rfl⟩ := same
                        exact False.elim (readable join fourth)
                  | some read =>
                      obtain ⟨data, rest⟩ := read
                      have width := (read_bytes_some _ _ _ _ fourth).2
                      rw [width] at fourth
                      by_cases whole : toLong (this.offset + data.length) ≥ dataSize
                      · constructor
                        · simp [channelRead0, delivery, joinHeader, decoded, toRead, first, bad, second, third, join,
                            fourth, width, whole, Session.receive, session]
                        · simp [channelRead0, first, bad, second, third, join, fourth, width, whole]
                      · constructor
                        · simp [channelRead0, delivery, joinHeader, decoded, toRead, first, bad, second, third, join,
                            fourth, width, whole, Session.receive, session]
                        · simp [channelRead0, first, bad, second, third, join, fourth, width, whole]

def frameHeader (header : Bytes) (dataSize : Int) : Bytes := writeInt header.length ++ header ++ writeLong dataSize

@[simp] theorem frame_header_length (header : Bytes) (dataSize : Int) :
    (frameHeader header dataSize).length = header.length + 12 := by
  simp [frameHeader]
  omega

theorem frame_header_append (header rest : Bytes) (dataSize : Int) :
    frameHeader header dataSize ++ rest = writeInt header.length ++ (header ++ (writeLong dataSize ++ rest)) := by
  simp [frameHeader]

theorem decode_header_frame (header rest : Bytes) (dataSize : Int) (short : header.length < 100)
    (low : -2 ^ 63 ≤ dataSize) (high : dataSize < 2 ^ 63) :
    decodeHeader (frameHeader header dataSize ++ rest) = some (toStringUtf8 header, dataSize, rest) := by
  have size : ¬ ((header.length : Int) ≥ 100 ∨ (header.length : Int) < 0) := by omega
  rw [frame_header_append, decodeHeader, read_int_write _ _ (by omega) (by omega)]
  simp only [if_neg size, read_bytes_append header _ _ rfl, read_long_write dataSize rest low high]

theorem decode_header_some (bytes rest : Bytes) (text : JString) (dataSize : Int)
    (decoded : decodeHeader bytes = some (text, dataSize, rest)) :
    ∃ header, bytes = frameHeader header dataSize ++ rest ∧ header.length < 100 ∧ toStringUtf8 header = text ∧
      -2 ^ 63 ≤ dataSize ∧ dataSize < 2 ^ 63 := by
  unfold decodeHeader at decoded
  cases first : readInt bytes with
  | none => simp [first] at decoded
  | some read =>
      obtain ⟨headerSize, buf⟩ := read
      by_cases bad : headerSize ≥ 100 ∨ headerSize < 0
      · simp [first, bad] at decoded
      cases second : readBytes headerSize buf with
      | none => simp [first, bad, second] at decoded
      | some read =>
          obtain ⟨header, tail⟩ := read
          cases third : readLong tail with
          | none => simp [first, bad, second, third] at decoded
          | some read =>
              obtain ⟨size, left⟩ := read
              simp only [first, if_neg bad, second, third, Option.some.injEq, Prod.mk.injEq] at decoded
              obtain ⟨textEq, rfl, rfl⟩ := decoded
              obtain ⟨bytesEq, _⟩ := read_int_some bytes buf headerSize first
              obtain ⟨bufEq, width⟩ := read_bytes_some headerSize buf header tail second
              obtain ⟨tailEq, low, high⟩ := read_long_some tail left size third
              refine ⟨header, ?_, by omega, textEq, low, high⟩
              rw [bytesEq, bufEq, tailEq, width, frameHeader]
              simp

-- A chunk that ends a JOIN, said of its bytes: its data field brings the
-- accumulated offset to the announced length.
def CompletesJoin (offset : Int) (bytes data : Bytes) : Prop :=
  ∃ header dataSize rest, bytes = frameHeader header dataSize ++ (data ++ rest) ∧ header.length < 100 ∧
    startsWith (toStringUtf8 header) opCodeJoin = true ∧ (-2 ^ 63 ≤ dataSize ∧ dataSize < 2 ^ 63) ∧
    toRead offset dataSize (data ++ rest) = data.length ∧ dataSize ≤ toLong (offset + data.length)

theorem join_header_frame (header rest : Bytes) (dataSize : Int) (short : header.length < 100)
    (join : startsWith (toStringUtf8 header) opCodeJoin = true) (low : -2 ^ 63 ≤ dataSize) (high : dataSize < 2 ^ 63) :
    joinHeader (frameHeader header dataSize ++ rest) = some (dataSize, rest) := by
  rw [joinHeader, decode_header_frame header rest dataSize short low high]
  simp only [join, if_true]

theorem join_header_some (bytes rest : Bytes) (dataSize : Int) (decoded : joinHeader bytes = some (dataSize, rest)) :
    ∃ header, bytes = frameHeader header dataSize ++ rest ∧ header.length < 100 ∧
      startsWith (toStringUtf8 header) opCodeJoin = true ∧ -2 ^ 63 ≤ dataSize ∧ dataSize < 2 ^ 63 := by
  unfold joinHeader at decoded
  cases headerRead : decodeHeader bytes with
  | none => simp [headerRead] at decoded
  | some parts =>
      obtain ⟨text, size, buf⟩ := parts
      cases join : startsWith text opCodeJoin with
      | false => simp [headerRead, join] at decoded
      | true =>
          simp only [headerRead, join, if_true, Option.some.injEq, Prod.mk.injEq] at decoded
          obtain ⟨rfl, rfl⟩ := decoded
          obtain ⟨header, bytesEq, short, textEq, low, high⟩ := decode_header_some bytes buf text size headerRead
          exact ⟨header, bytesEq, short, by rw [textEq, join], low, high⟩

theorem delivery_joined_iff (offset : Int) (bytes data : Bytes) :
    delivery offset bytes = .joined data ↔ CompletesJoin offset bytes data := by
  constructor
  · intro joined
    unfold delivery at joined
    cases decoded : joinHeader bytes with
    | none => simp [decoded] at joined
    | some parts =>
        obtain ⟨dataSize, buf⟩ := parts
        obtain ⟨header, bytesEq, short, join, low, high⟩ := join_header_some bytes buf dataSize decoded
        cases read : readBytes (toRead offset dataSize buf) buf with
        | none => simp [decoded, read] at joined
        | some parts =>
            obtain ⟨field, rest⟩ := parts
            obtain ⟨split, width⟩ := read_bytes_some _ _ _ _ read
            by_cases whole : toLong (offset + toRead offset dataSize buf) ≥ dataSize
            · simp only [decoded, read, if_pos whole, Delivery.joined.injEq] at joined
              subst joined
              refine ⟨header, dataSize, rest, ?_, short, join, ⟨low, high⟩, ?_, ?_⟩
              · rw [bytesEq, split]
              · rw [← split, width]
              · rw [← width]
                exact whole
            · simp [decoded, read, if_neg whole] at joined
  · rintro ⟨header, dataSize, rest, rfl, short, join, ⟨low, high⟩, width, whole⟩
    rw [delivery, join_header_frame header _ dataSize short join low high]
    simp only [width, read_bytes_append data rest _ rfl, if_pos whole]

def joinFrame (data : Bytes) : Bytes := frameHeader (getBytes opCodeJoin) data.length ++ data

theorem to_read_exact (data rest : Bytes) (fits : (data ++ rest).length < 2 ^ 31) :
    toRead 0 data.length (data ++ rest) = data.length := by
  rw [List.length_append] at fits
  have amount : toLong ((data.length : Int) - 0) = data.length := to_long_small _ (by omega) (by omega)
  have least : min (data.length : Int) ((data ++ rest).length : Int) = data.length := by
    rw [List.length_append]
    omega
  rw [toRead, amount, least]
  exact to_int_small _ (by omega) (by omega)

theorem completes_whole_join (header data rest : Bytes) (short : header.length < 100)
    (join : startsWith (toStringUtf8 header) opCodeJoin = true) (fits : (data ++ rest).length < 2 ^ 31) :
    CompletesJoin 0 (frameHeader header data.length ++ (data ++ rest)) data := by
  have small : data.length < 2 ^ 31 := by
    rw [List.length_append] at fits
    omega
  refine ⟨header, data.length, rest, rfl, short, join, ⟨by omega, by omega⟩, to_read_exact data rest fits, ?_⟩
  rw [to_long_small _ (by omega) (by omega)]
  omega

end Nenes
