import Mathlib.Data.List.Basic

set_option autoImplicit false

namespace Json

abbrev Units := List UInt16

def quotationMark : UInt16 := 34
def comma : UInt16 := 44
def colon : UInt16 := 58
def backslash : UInt16 := 92
def leftBrace : UInt16 := 123
def rightBrace : UInt16 := 125

def escape (unit : UInt16) : Units := if unit = quotationMark ∨ unit = backslash then [backslash, unit] else [unit]

def quote (s : Units) : Units := quotationMark :: (s.flatMap escape ++ [quotationMark])

-- escaped says whether the unit before was a backslash.
def unquoteRest : Bool → Units → Option (Units × Units)
  | _, [] => none
  | true, unit :: rest => (unquoteRest false rest).map fun found => (unit :: found.1, found.2)
  | false, unit :: rest =>
      if unit = quotationMark then some ([], rest)
      else if unit = backslash then unquoteRest true rest
      else (unquoteRest false rest).map fun found => (unit :: found.1, found.2)

def expect (mark : UInt16) : Units → Option Units
  | [] => none
  | unit :: rest => if unit = mark then some rest else none

def unquote (text : Units) : Option (Units × Units) := (expect quotationMark text).bind (unquoteRest false)

-- An object with string members, written without blanks.
def member (entry : Units × Units) : Units := quote entry.1 ++ colon :: quote entry.2

def members : List (Units × Units) → Units
  | [] => []
  | [entry] => member entry
  | entry :: rest => member entry ++ comma :: members rest

def object (entries : List (Units × Units)) : Units := leftBrace :: (members entries ++ [rightBrace])

def readMember (text : Units) : Option ((Units × Units) × Units) :=
  (unquote text).bind fun name => (expect colon name.2).bind fun text =>
    (unquote text).map fun value => ((name.1, value.1), value.2)

def readMembers : Nat → Units → Option (List (Units × Units))
  | 0, _ => none
  | fuel + 1, text =>
      (readMember text).bind fun entry =>
        if entry.2 = [rightBrace] then some [entry.1]
        else (expect comma entry.2).bind fun text => (readMembers fuel text).map fun rest => entry.1 :: rest

def readObject (text : Units) : Option (List (Units × Units)) :=
  (expect leftBrace text).bind fun text => if text = [rightBrace] then some [] else readMembers text.length text

theorem expect_mark (mark : UInt16) (rest : Units) : expect mark (mark :: rest) = some rest := if_pos rfl

theorem unquote_escape (unit : UInt16) (rest : Units) :
    unquoteRest false (escape unit ++ rest) = (unquoteRest false rest).map fun found => (unit :: found.1, found.2) := by
  by_cases special : unit = quotationMark ∨ unit = backslash
  · rw [escape, if_pos special, List.cons_append, List.cons_append, unquoteRest, if_neg (by decide), if_pos rfl,
      unquoteRest]
    rfl
  · obtain ⟨notQuote, notBackslash⟩ := not_or.mp special
    rw [escape, if_neg special, List.cons_append, unquoteRest, if_neg notQuote, if_neg notBackslash]
    rfl

theorem unquote_quote (s rest : Units) : unquote (quote s ++ rest) = some (s, rest) := by
  rw [unquote, quote, List.cons_append, expect_mark, Option.bind_some, List.append_assoc]
  induction s with
  | nil => exact if_pos rfl
  | cons unit tail ih => rw [List.flatMap_cons, List.append_assoc, unquote_escape, ih, Option.map_some]

theorem read_member (entry : Units × Units) (rest : Units) : readMember (member entry ++ rest) = some (entry, rest) := by
  rw [readMember, member, List.append_assoc, unquote_quote, Option.bind_some, List.cons_append, expect_mark,
    Option.bind_some, unquote_quote]
  rfl

theorem comma_not_end (text : Units) : comma :: text ≠ [rightBrace] := by
  intro same
  exact absurd (List.cons.inj same).1 (by decide)

theorem read_members (entry : Units × Units) (rest : List (Units × Units)) (fuel : Nat) (enough : rest.length < fuel) :
    readMembers fuel (members (entry :: rest) ++ [rightBrace]) = some (entry :: rest) := by
  induction rest generalizing entry fuel with
  | nil =>
      obtain ⟨fuel, rfl⟩ := Nat.exists_eq_add_one_of_ne_zero (Nat.ne_zero_of_lt enough)
      rw [members, readMembers, read_member, Option.bind_some, if_pos rfl]
  | cons second rest ih =>
      obtain ⟨fuel, rfl⟩ := Nat.exists_eq_add_one_of_ne_zero (Nat.ne_zero_of_lt enough)
      rw [members, List.append_assoc, readMembers, read_member, Option.bind_some, List.cons_append,
        if_neg (comma_not_end _), expect_mark, Option.bind_some, ih second fuel (by simpa using enough), Option.map_some]
      exact List.cons_ne_nil second rest

theorem member_length (entry : Units × Units) : 0 < (member entry).length := by simp [member, quote]

theorem members_length (entries : List (Units × Units)) : entries.length ≤ (members entries).length := by
  induction entries with
  | nil => exact Nat.zero_le _
  | cons entry rest ih =>
      have positive := member_length entry
      cases rest with
      | nil => exact positive
      | cons second rest =>
          simp only [members, List.length_append, List.length_cons] at ih ⊢
          omega

theorem read_object (entries : List (Units × Units)) : readObject (object entries) = some entries := by
  rw [readObject, object, expect_mark, Option.bind_some]
  cases entries with
  | nil => exact if_pos rfl
  | cons entry rest =>
      have long := members_length (entry :: rest)
      have positive : members (entry :: rest) ++ [rightBrace] ≠ [rightBrace] := by
        intro same
        have := congrArg List.length same
        simp only [List.length_append, List.length_cons, List.length_nil] at this long
        omega
      rw [if_neg positive, read_members entry rest _ ?_]
      simp only [List.length_append, List.length_cons, List.length_nil] at long ⊢
      omega

end Json
