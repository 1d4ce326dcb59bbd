import Mathlib.Data.Finmap
import Nenes.Base.Runs
import Nenes.JoinDecoder

set_option autoImplicit false

namespace Nenes

open ByteBuf OperationServerHandler

-- HashMap<String, Channel>: the iteration order is not modelled.
abbrev ChannelMap (Ch : Type) := Finmap fun _ : JString => Ch

structure MessageEvent (Ch : Type) where
  source : Ch
  data : MessageEventData
deriving DecidableEq

structure Server (Ch : Type) where
  map : ChannelMap Ch
  handler : Ch → OperationServerHandler
  inactive : Ch → Bool
  events : List (MessageEvent Ch)

inductive Call (Ch : Type) where
  | channelRead0 (c : Ch) (msg : Chunk)
  | channelInactive (c : Ch)

def Call.channel {Ch : Type} : Call Ch → Ch
  | .channelRead0 c _ => c
  | .channelInactive c => c

namespace Server

variable {Ch : Type} [DecidableEq Ch]

def start : Server Ch := ⟨∅, fun _ => {}, fun _ => false, []⟩

def perform (c : Ch) (s : Server Ch) : Effect → Server Ch
  | .put key => { s with map := s.map.insert key c }
  | .remove key => { s with map := s.map.erase key }
  | .publishEvent data => { s with events := s.events ++ [⟨c, data⟩] }

def settle (c : Ch) (s : Server Ch) (outcome : Outcome) : Server Ch :=
  outcome.effects.foldl (perform c) { s with handler := Function.update s.handler c outcome.handler }

def call (id : Ch → JString) (s : Server Ch) : Call Ch → Server Ch
  | .channelRead0 c msg => settle c s (channelRead0 (id c) (s.handler c) msg)
  | .channelInactive c =>
      settle c { s with inactive := Function.update s.inactive c true } (channelInactive (s.handler c))

-- Netty reads from a channel and closes it only until channelInactive.
def Live (s : Server Ch) (action : Call Ch) : Prop := s.inactive action.channel = false

instance (s : Server Ch) (action : Call Ch) : Decidable (Live s action) :=
  inferInstanceAs (Decidable (s.inactive action.channel = false))

def JoinsAs (id : Ch → JString) (s : Server Ch) (c : Ch) (msg : Chunk) (name : JString) : Prop :=
  ∃ data, CompletesJoin (s.handler c).offset msg.bytes data ∧
    name = nameOf ((s.handler c).operationData ++ toStringUtf8 data) (id c)

def joinedState (s : Server Ch) (c : Ch) (after : OperationServerHandler) : Server Ch where
  map := s.map.insert after.agentName c
  handler := Function.update s.handler c after
  inactive := s.inactive
  events := s.events ++ [⟨c, ⟨.connected, after.agentName, []⟩⟩]

def inactiveState (s : Server Ch) (c : Ch) : Server Ch where
  map := s.map.erase (s.handler c).agentName
  handler := s.handler
  inactive := Function.update s.inactive c true
  events := s.events ++ [⟨c, ⟨.disconnected, (s.handler c).agentName, []⟩⟩]

def afterRead (id : Ch → JString) (s : Server Ch) (c : Ch) (msg : Chunk) : OperationServerHandler :=
  (channelRead0 (id c) (s.handler c) msg).handler

inductive CallRead (id : Ch → JString) (s : Server Ch) (c : Ch) (msg : Chunk) : Prop where
  | quiet (absent : ∀ name, ¬ JoinsAs id s c msg name)
      (sameName : (afterRead id s c msg).agentName = (s.handler c).agentName)
      (next : call id s (.channelRead0 c msg) = { s with handler := Function.update s.handler c (afterRead id s c msg) })
  | joined (joins : JoinsAs id s c msg (afterRead id s c msg).agentName)
      (next : call id s (.channelRead0 c msg) = joinedState s c (afterRead id s c msg))

theorem call_read_cases (id : Ch → JString) (s : Server Ch) (c : Ch) (msg : Chunk) : CallRead id s c msg := by
  have refines := (channel_read_spec (id c) (s.handler c) msg).refines
  have nameEq : (afterRead id s c msg).agentName =
      ((s.handler c).session.receive (id c) (delivery (s.handler c).offset msg.bytes)).1.agentName :=
    congrArg (fun read => read.1.agentName) refines
  have effectsEq : (channelRead0 (id c) (s.handler c) msg).effects =
      ((s.handler c).session.receive (id c) (delivery (s.handler c).offset msg.bytes)).2 := congrArg Prod.snd refines
  by_cases unjoined : ∀ data, delivery (s.handler c).offset msg.bytes ≠ .joined data
  · obtain ⟨sameName, nothing⟩ := receive_unjoined (id c) (s.handler c).session _ unjoined
    refine .quiet ?_ ?_ ?_
    · intro name joins
      obtain ⟨data, completes, _⟩ := joins
      exact unjoined data ((delivery_joined_iff _ _ _).mpr completes)
    · exact nameEq.trans sameName
    · simp only [call, settle, effectsEq, nothing]
      rfl
  · obtain ⟨data, kind⟩ := not_forall_not.mp unjoined
    rw [kind] at nameEq effectsEq
    refine .joined ⟨data, (delivery_joined_iff _ _ _).mp kind, nameEq⟩ ?_
    simp only [call, settle, effectsEq, joinedState, nameEq]
    rfl

theorem call_inactive (id : Ch → JString) (s : Server Ch) (c : Ch) :
    call id s (.channelInactive c) = inactiveState s c := by
  simp [call, settle, channelInactive, perform, inactiveState]

-- Where the put key is met, it is the joined connection's; the others are as before.
theorem lookup_joined (s : Server Ch) (c other : Ch) (after : OperationServerHandler) (key : JString)
    (found : (joinedState s c after).map.lookup key = some other) :
    (key = after.agentName ∧ other = c) ∨ (key ≠ after.agentName ∧ s.map.lookup key = some other) := by
  rw [joinedState] at found
  by_cases hit : key = after.agentName
  · subst hit
    rw [Finmap.lookup_insert] at found
    exact .inl ⟨rfl, (Option.some.inj found).symm⟩
  · rw [Finmap.lookup_insert_of_ne _ hit] at found
    exact .inr ⟨hit, found⟩

theorem lookup_after_inactive (s : Server Ch) (c other : Ch) (key : JString)
    (found : (inactiveState s c).map.lookup key = some other) :
    key ≠ (s.handler c).agentName ∧ s.map.lookup key = some other := by
  rw [inactiveState] at found
  by_cases hit : key = (s.handler c).agentName
  · rw [hit, Finmap.lookup_erase] at found
    cases found
  · rw [Finmap.lookup_erase_ne hit] at found
    exact ⟨hit, found⟩

end Server

def sampleId (_ : Nat) : JString := ofString "d53f5b8e"

theorem sample_a_fits : (joinFrame (getBytes (ofString "a"))).length < 2 ^ 31 := by decide +kernel

theorem sample_b_fits : (joinFrame (getBytes (ofString "b"))).length < 2 ^ 31 := by decide +kernel

def chunkA : Chunk := ⟨_, sample_a_fits⟩

def chunkB : Chunk := ⟨_, sample_b_fits⟩

def joinA : Call Nat := .channelRead0 0 chunkA

def joinB : Call Nat := .channelRead0 0 chunkB

end Nenes
