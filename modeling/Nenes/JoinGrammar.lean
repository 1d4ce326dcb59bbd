import Nenes.ChannelManager
import Nenes.WholeFrames

set_option autoImplicit false

namespace Nenes

open ByteBuf OperationServerHandler

-- The JOIN message: header length, header, data length, and the data in front
-- of anything that follows.
def JoinGrammar (bytes data : Bytes) : Prop :=
  ∃ (n m : Int) (header follow : Bytes), bytes = writeInt n ++ header ++ writeLong m ++ follow ∧
    (0 ≤ n ∧ n < 100 ∧ n = header.length) ∧ startsWith (toStringUtf8 header) opCodeJoin = true ∧
    (0 ≤ m ∧ m ≤ follow.length) ∧ data = follow.take m.toNat

def DecodesGrammar (id : JString) (this : OperationServerHandler) (msg : Chunk) : Prop :=
  ∀ name, .put name ∈ (channelRead0 id this msg).effects ↔
    ∃ data, JoinGrammar msg.bytes data ∧ name = nameOf (toStringUtf8 data) id

-- A negative data length whose low 32 bits, narrowed to an int, are a number of
-- bytes that can be read: Math.min takes the long and the cast drops its sign.
def WrapsLength (bytes : Bytes) : Prop :=
  ∃ (m : Int) (header follow : Bytes), bytes = frameHeader header m ++ follow ∧ header.length < 100 ∧
    startsWith (toStringUtf8 header) opCodeJoin = true ∧ (-2 ^ 63 ≤ m ∧ m < 0) ∧ 0 ≤ toInt m ∧ toInt m ≤ follow.length

theorem join_grammar_header (bytes data : Bytes) (fits : bytes.length < 2 ^ 31) (formed : JoinGrammar bytes data) :
    ∃ m follow, joinHeader bytes = some (m, follow) ∧ 0 ≤ m ∧ m ≤ follow.length ∧ data = follow.take m.toNat := by
  obtain ⟨n, m, header, follow, rfl, ⟨_, short, rfl⟩, join, ⟨low, high⟩, field⟩ := formed
  rw [List.length_append] at fits
  exact ⟨m, follow, join_header_frame header follow m (by omega) join (by omega) (by omega), low, high, field⟩

theorem header_join_grammar (bytes follow : Bytes) (m : Int) (decoded : joinHeader bytes = some (m, follow)) (low : 0 ≤ m)
    (high : m ≤ follow.length) : JoinGrammar bytes (follow.take m.toNat) := by
  obtain ⟨header, bytesEq, short, join, _⟩ := join_header_some bytes follow m decoded
  exact ⟨header.length, m, header, follow, bytesEq, ⟨by omega, by omega, rfl⟩, join, ⟨low, high⟩, rfl⟩

theorem wraps_length_header (bytes : Bytes) (wraps : WrapsLength bytes) :
    ∃ m follow, joinHeader bytes = some (m, follow) ∧ m < 0 ∧ 0 ≤ toInt m ∧ toInt m ≤ follow.length := by
  obtain ⟨m, header, follow, rfl, short, join, ⟨low, negative⟩, reads, inside⟩ := wraps
  exact ⟨m, follow, join_header_frame header follow m short join low (by omega), negative, reads, inside⟩

theorem header_wraps_length (bytes follow : Bytes) (m : Int) (decoded : joinHeader bytes = some (m, follow)) (negative : m < 0)
    (reads : 0 ≤ toInt m) (inside : toInt m ≤ follow.length) : WrapsLength bytes := by
  obtain ⟨header, bytesEq, short, join, low, _⟩ := join_header_some bytes follow m decoded
  exact ⟨m, header, follow, bytesEq, short, join, ⟨low, negative⟩, reads, inside⟩

theorem join_header_fits (bytes follow : Bytes) (m : Int) (decoded : joinHeader bytes = some (m, follow))
    (fits : bytes.length < 2 ^ 31) : follow.length < 2 ^ 31 ∧ -2 ^ 63 ≤ m ∧ m < 2 ^ 63 := by
  obtain ⟨header, bytesEq, _, _, low, high⟩ := join_header_some bytes follow m decoded
  rw [bytesEq, List.length_append] at fits
  exact ⟨by omega, low, high⟩

-- What a connection with nothing accumulated does with a JOIN header, by the
-- three ways the announced length can lie to the bytes that follow.
inductive FreshRead (bytes follow : Bytes) (m : Int) : Prop where
  | exact_ (low : 0 ≤ m) (high : m ≤ follow.length) (kind : delivery 0 bytes = .joined (follow.take m.toNat))
  | short (long : follow.length < m) (kind : delivery 0 bytes = .stored follow)
  | wrapped (negative : m < 0) (reads : 0 ≤ toInt m) (inside : toInt m ≤ follow.length)
      (kind : delivery 0 bytes = .joined (follow.take (toInt m).toNat))
  | negative (negative : m < 0) (unreadable : ¬ (0 ≤ toInt m ∧ toInt m ≤ follow.length)) (kind : delivery 0 bytes = .ignored)

theorem fresh_read_cases (bytes follow : Bytes) (m : Int) (decoded : joinHeader bytes = some (m, follow))
    (fits : bytes.length < 2 ^ 31) : FreshRead bytes follow m := by
  obtain ⟨small, low, high⟩ := join_header_fits bytes follow m decoded fits
  have amount : toLong (m - 0) = m := by
    rw [Int.sub_zero]
    exact to_long_small m low high
  by_cases negative : m < 0
  · have width : toRead 0 m follow = toInt m := by
      rw [toRead, amount, min_eq_left (by omega)]
    by_cases readable : 0 ≤ toInt m ∧ toInt m ≤ follow.length
    · have range := to_int_range m
      have whole : toLong (0 + toInt m) ≥ m := by
        rw [to_long_small _ (by omega) (by omega)]
        omega
      refine .wrapped negative readable.1 readable.2 ?_
      simp only [delivery, decoded, width, readBytes, if_pos readable, if_pos whole]
    · refine .negative negative readable ?_
      simp only [delivery, decoded, width, readBytes, if_neg readable]
  by_cases inside : m ≤ follow.length
  · have width : toRead 0 m follow = m := by
      rw [toRead, amount, min_eq_left inside]
      exact to_int_small m (by omega) (by omega)
    have readable : 0 ≤ m ∧ m ≤ follow.length := ⟨by omega, inside⟩
    have whole : toLong (0 + m) ≥ m := by
      rw [Int.zero_add, to_long_small m low high]
    refine .exact_ readable.1 inside ?_
    simp only [delivery, decoded, width, readBytes, if_pos readable, if_pos whole]
  · have width : toRead 0 m follow = follow.length := by
      rw [toRead, amount, min_eq_right (by omega)]
      exact to_int_small _ (by omega) (by omega)
    have readable : (0 : Int) ≤ follow.length ∧ (follow.length : Int) ≤ follow.length := ⟨by omega, by omega⟩
    have missing : ¬ toLong (0 + follow.length) ≥ m := by
      rw [to_long_small _ (by omega) (by omega)]
      omega
    refine .short (by omega) ?_
    simp only [delivery, decoded, width, readBytes, if_pos readable, if_neg missing, Int.toNat_natCast, List.take_length]

theorem fresh_effects (id : JString) (this : OperationServerHandler) (msg : Chunk) (fresh : AtFrameStart this) :
    (channelRead0 id this msg).effects = (Session.receive id ⟨0, [], this.agentName⟩ (delivery 0 msg.bytes)).2 := by
  have start : this.session = ⟨0, [], this.agentName⟩ := by rw [session, fresh.1, fresh.2]
  have effects := congrArg Prod.snd (channel_read_spec id this msg).refines
  rw [fresh.1, start] at effects
  exact effects

theorem fresh_put_joined (id : JString) (this : OperationServerHandler) (msg : Chunk) (fresh : AtFrameStart this) (data : Bytes)
    (kind : delivery 0 msg.bytes = .joined data) (name : JString) :
    .put name ∈ (channelRead0 id this msg).effects ↔ name = nameOf (toStringUtf8 data) id := by
  rw [fresh_effects id this msg fresh, kind]
  simp [Session.receive]

theorem fresh_put_quiet (id : JString) (this : OperationServerHandler) (msg : Chunk) (fresh : AtFrameStart this)
    (kind : ∀ data, delivery 0 msg.bytes ≠ .joined data) (name : JString) : .put name ∉ (channelRead0 id this msg).effects := by
  rw [fresh_effects id this msg fresh]
  cases found : delivery 0 msg.bytes with
  | ignored => simp [Session.receive]
  | stored data => simp [Session.receive]
  | joined data => exact False.elim (kind data found)

theorem quiet_decodes (id : JString) (this : OperationServerHandler) (msg : Chunk) (fresh : AtFrameStart this)
    (kind : ∀ data, delivery 0 msg.bytes ≠ .joined data) (unformed : ∀ data, ¬ JoinGrammar msg.bytes data) :
    DecodesGrammar id this msg := by
  intro name
  constructor
  · intro registered
    exact False.elim (fresh_put_quiet id this msg fresh kind name registered)
  · intro formed
    obtain ⟨data, grammar, _⟩ := formed
    exact False.elim (unformed data grammar)

theorem outside_grammar (bytes follow : Bytes) (m : Int) (fits : bytes.length < 2 ^ 31)
    (decoded : joinHeader bytes = some (m, follow)) (outside : ¬ (0 ≤ m ∧ m ≤ follow.length)) (data : Bytes) :
    ¬ JoinGrammar bytes data := by
  intro formed
  obtain ⟨_, _, other, low, high, _⟩ := join_grammar_header bytes data fits formed
  rw [decoded] at other
  cases other
  exact outside ⟨low, high⟩

theorem wraps_length_iff (bytes follow : Bytes) (m : Int) (decoded : joinHeader bytes = some (m, follow)) :
    WrapsLength bytes ↔ m < 0 ∧ 0 ≤ toInt m ∧ toInt m ≤ follow.length := by
  constructor
  · intro wraps
    obtain ⟨_, _, other, condition⟩ := wraps_length_header bytes wraps
    rw [decoded] at other
    cases other
    exact condition
  · intro condition
    exact header_wraps_length bytes follow m decoded condition.1 condition.2.1 condition.2.2

theorem other_header_decodes (id : JString) (this : OperationServerHandler) (msg : Chunk) (fresh : AtFrameStart this)
    (other : joinHeader msg.bytes = none) : DecodesGrammar id this msg ∧ ¬ WrapsLength msg.bytes := by
  have ignored : delivery 0 msg.bytes = .ignored := by rw [delivery, other]
  constructor
  · apply quiet_decodes id this msg fresh
    · simp [ignored]
    · intro data formed
      obtain ⟨_, _, header, _⟩ := join_grammar_header msg.bytes data msg.fits formed
      rw [other] at header
      cases header
  · intro wraps
    obtain ⟨_, _, header, _⟩ := wraps_length_header msg.bytes wraps
    rw [other] at header
    cases header

theorem exact_read_decodes (id : JString) (this : OperationServerHandler) (msg : Chunk) (fresh : AtFrameStart this)
    (follow : Bytes) (m : Int) (decoded : joinHeader msg.bytes = some (m, follow)) (low : 0 ≤ m) (high : m ≤ follow.length)
    (kind : delivery 0 msg.bytes = .joined (follow.take m.toNat)) : DecodesGrammar id this msg := by
  intro name
  rw [fresh_put_joined id this msg fresh _ kind]
  constructor
  · intro named
    exact ⟨_, header_join_grammar msg.bytes follow m decoded low high, named⟩
  · intro formed
    obtain ⟨data, grammar, named⟩ := formed
    obtain ⟨_, _, other, _, _, field⟩ := join_grammar_header msg.bytes data msg.fits grammar
    rw [decoded] at other
    cases other
    rw [named, field]

theorem decoder_accepts_grammar (id : JString) (this : OperationServerHandler) (msg : Chunk) (fresh : AtFrameStart this) :
    DecodesGrammar id this msg ↔ ¬ WrapsLength msg.bytes := by
  cases decoded : joinHeader msg.bytes with
  | none =>
      obtain ⟨decodes, unwrapped⟩ := other_header_decodes id this msg fresh decoded
      exact iff_of_true decodes unwrapped
  | some parts =>
      obtain ⟨m, follow⟩ := parts
      have outside := outside_grammar msg.bytes follow m msg.fits decoded
      rw [wraps_length_iff msg.bytes follow m decoded]
      cases fresh_read_cases msg.bytes follow m decoded msg.fits with
      | exact_ low high kind =>
          apply iff_of_true
          · exact exact_read_decodes id this msg fresh follow m decoded low high kind
          · omega
      | short long kind =>
          apply iff_of_true
          · exact quiet_decodes id this msg fresh (by simp [kind]) (outside (by omega))
          · omega
      | wrapped negative reads inside kind =>
          apply iff_of_false
          · intro exact_
            obtain ⟨data, formed, _⟩ := (exact_ _).mp ((fresh_put_joined id this msg fresh _ kind _).mpr rfl)
            exact outside (by omega) data formed
          · omega
      | negative negative unreadable kind =>
          apply iff_of_true
          · exact quiet_decodes id this msg fresh (by simp [kind]) (outside (by omega))
          · omega

theorem fresh_connection_decodes : DecodesGrammar (sampleId 0) {} chunkA ↔ ¬ WrapsLength chunkA.bytes :=
  decoder_accepts_grammar (sampleId 0) {} chunkA ⟨rfl, rfl⟩

theorem negative_length_fits : (frameHeader (getBytes opCodeJoin) (-2 ^ 32)).length < 2 ^ 31 := by decide +kernel

-- The low 32 bits of the announced length are zero: no byte is read, and the
-- empty name is registered.
theorem negative_length_registers :
    ¬ DecodesGrammar (sampleId 0) {} ⟨frameHeader (getBytes opCodeJoin) (-2 ^ 32), negative_length_fits⟩ := by
  intro exact_
  obtain ⟨data, formed, _⟩ := (exact_ (ofString "(d53f5b8e)")).mp (by decide +kernel)
  obtain ⟨m, follow, decoded, low, _⟩ := join_grammar_header _ data negative_length_fits formed
  have header : joinHeader (frameHeader (getBytes opCodeJoin) (-2 ^ 32)) = some (-2 ^ 32, []) := by decide +kernel
  rw [header] at decoded
  cases decoded
  omega

end Nenes
