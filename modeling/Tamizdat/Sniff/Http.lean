/- source: internal/sniff/http.go
   digest: The host of an HTTP request, read off the bytes that have come so far. -/

import Tamizdat.Machine.Text

set_option autoImplicit false

open List Option
namespace Tamizdat.Sniff.Http
open Machine.Text (cut)
abbrev Bytes := List UInt8

/-- What stays open: the functions of `strings` on bytes that need not be ASCII. -/
structure Strings where
  trimSpace : Bytes → Bytes
  toLower : Bytes → Bytes

def ascii (s : String) : Bytes := s.toList.map fun c => c.toNat.toUInt8

/-- The line up to the first `\r\n`, and what follows it. -/
def cutLine : Bytes → Option (Bytes × Bytes)
  | 13 :: 10 :: rest => some ([], rest)
  | b :: rest => (cutLine rest).map fun (line, rest) => (b :: line, rest)
  | [] => none

def looksLikeHTTPMethod (data : Bytes) : Bool :=
  [ascii "GET ", ascii "POST ", ascii "HEAD ", ascii "PUT ", ascii "DELETE ", ascii "OPTIONS ",
    ascii "PATCH ", ascii "CONNECT ", ascii "TRACE "].any (·.isPrefixOf data)

variable (std : Strings)
def isHost (name : Bytes) : Bool := std.toLower (std.trimSpace name) = ascii "host"

/-- The value up to its first colon, which `HTTPHost` takes for that of the port. -/
def stripPort (value : Bytes) : Bytes := ((cut 58 value).map Prod.fst).getD value

def hostValue (value : Bytes) : Option Bytes :=
  let val := std.toLower (stripPort (std.trimSpace value))
  if val = [] then none else some val

/-- Every turn of the loop over the header lines takes a byte or more. -/
def scanHeaders : Nat → Bytes → Option Bytes
  | 0, _ => none
  | fuel + 1, headerBlock =>
    let (line, rest) := (cutLine headerBlock).getD (headerBlock, [])
    if line = [] then none
    else
      match cut 58 line with
      | none => scanHeaders fuel rest
      | some (name, value) => if isHost std name then hostValue std value else scanHeaders fuel rest

def httpHost (data : Bytes) : Option Bytes :=
  if data.length < 16 ∨ looksLikeHTTPMethod data = false then none
  else (cutLine data).bind fun (_, headerBlock) => scanHeaders std headerBlock.length headerBlock

/-- A field line holds no carriage return, and its name no colon. -/
structure Field where
  name : Bytes
  value : Bytes
  plainName : 13 ∉ name ∧ 58 ∉ name
  plainValue : 13 ∉ value

def Field.line (f : Field) : Bytes := f.name ++ 58 :: f.value

structure Head where
  requestLine : Bytes
  plainLine : 13 ∉ requestLine
  fields : List Field

def encodeLine (line : Bytes) : Bytes := line ++ [13, 10]

def block (fields : List Field) : Bytes :=
  fields.flatMap (fun f => encodeLine f.line) ++ [13, 10]

def Head.encode (head : Head) : Bytes := encodeLine head.requestLine ++ block head.fields

/-- The host of a field value: a literal in brackets, or what stands before the port. -/
def hostPart (value : Bytes) : Bytes :=
  if value.head? = some 91 then value.takeWhile (· ≠ 93) ++ [93] else stripPort value

def Head.host (head : Head) : Option Bytes :=
  (head.fields.find? fun f => isHost std f.name).map fun f =>
    std.toLower (hostPart (std.trimSpace f.value))

/-- How much of the value of the first Host field is among the first `n` bytes of the field lines,
if the colon before it is: the value, or a part of it with what has come of the line end. -/
def seen : List Field → Nat → Option Bytes
  | [], _ => none
  | f :: rest, n =>
    if isHost std f.name = false then seen rest (n - (encodeLine f.line).length)
    else if n ≤ f.name.length then none
    else if n < (encodeLine f.line).length then
      some ((f.value ++ [13, 10]).take (n - (f.name.length + 1)))
    else some f.value

def Head.seen (head : Head) (n : Nat) : Option Bytes :=
  Http.seen std head.fields (n - (encodeLine head.requestLine).length)

lemma cutLine_append {line : Bytes} (plain : 13 ∉ line) (rest : Bytes) :
    cutLine (encodeLine line ++ rest) = some (line, rest) := by
  rw [encodeLine, append_assoc]
  induction line with
  | nil => rfl
  | cons b line ih =>
    obtain ⟨other, plain⟩ := not_or.mp (mem_cons.not.mp plain)
    rw [cons_append, cutLine, ih plain]
    · rfl
    · intro rest same
      exact absurd same.symm other

lemma cut_append {name : Bytes} (plain : 58 ∉ name) (value : Bytes) :
    cut 58 (name ++ 58 :: value) = some (name, value) := by
  induction name with
  | nil => rfl
  | cons b name ih =>
    obtain ⟨other, plain⟩ := not_or.mp (mem_cons.not.mp plain)
    rw [cons_append, cut, if_neg (Ne.symm other), ih plain]
    rfl

variable {std}
lemma scanHeaders_line (fuel : Nat) (f : Field) (rest : Bytes) :
    scanHeaders std (fuel + 1) (encodeLine f.line ++ rest) =
      if isHost std f.name then hostValue std f.value else scanHeaders std fuel rest := by
  have plain : 13 ∉ f.line := by simp [Field.line, f.plainName.1, f.plainValue]
  simp only [scanHeaders, cutLine_append plain, Option.getD_some]
  rw [if_neg (by simp [Field.line]), Field.line, cut_append f.plainName.2]

lemma cutLine_cut {line : Bytes} (plain : 13 ∉ line) {n : Nat} (short : n < line.length + 2) :
    cutLine ((encodeLine line).take n) = none := by
  induction line generalizing n with
  | nil =>
    match n with
    | 0 | 1 => rfl
    | n + 2 => exact absurd short (by simp)
  | cons b line ih =>
    obtain ⟨other, plain⟩ := not_or.mp (mem_cons.not.mp plain)
    cases n with
    | zero => rfl
    | succ n =>
      have rest := ih plain (n := n) (by simpa using short)
      rw [encodeLine, cons_append, take_succ_cons, cutLine, ← encodeLine, rest]
      · rfl
      · intro rest same
        exact absurd same.symm other

lemma cut_eq_none {name : Bytes} (plain : 58 ∉ name) : cut 58 name = none := by
  induction name with
  | nil => rfl
  | cons b name ih =>
    obtain ⟨other, plain⟩ := not_or.mp (mem_cons.not.mp plain)
    rw [cut, if_neg (Ne.symm other), ih plain]
    rfl

lemma scanHeaders_nil (fuel : Nat) : scanHeaders std fuel [] = none := by
  cases fuel <;> rfl

lemma scanHeaders_cut {n fuel : Nat} (f : Field) (short : n < (encodeLine f.line).length)
    (enough : n ≤ fuel) :
    scanHeaders std fuel ((encodeLine f.line).take n) =
      if isHost std f.name = false ∨ n ≤ f.name.length then none
      else hostValue std ((f.value ++ [13, 10]).take (n - (f.name.length + 1))) := by
  have plain : 13 ∉ f.line := by simp [Field.line, f.plainName.1, f.plainValue]
  rcases Nat.eq_zero_or_pos n with rfl | positive
  · rw [take_zero, scanHeaders_nil, if_pos (.inr (Nat.zero_le _))]
  obtain ⟨fuel, rfl⟩ := Nat.exists_eq_add_one_of_ne_zero (by omega : fuel ≠ 0)
  have some : (encodeLine f.line).take n ≠ [] := by
    rw [ne_eq, take_eq_nil_iff, not_or]
    exact ⟨positive.ne', by simp [encodeLine]⟩
  simp only [scanHeaders, cutLine_cut plain (by simpa [encodeLine] using short), Option.getD_none]
  rw [if_neg some, show encodeLine f.line = f.name ++ 58 :: (f.value ++ [13, 10]) by
    simp [encodeLine, Field.line]]
  by_cases before : n ≤ f.name.length
  · rw [take_append_of_le_length before, if_pos (.inr before),
      cut_eq_none fun inside => f.plainName.2 (mem_of_mem_take inside)]
    exact scanHeaders_nil fuel
  · obtain ⟨k, rfl⟩ : ∃ k, n = f.name.length + (k + 1) := ⟨n - (f.name.length + 1), by omega⟩
    rw [take_length_add_append, take_succ_cons, cut_append f.plainName.2,
      show f.name.length + (k + 1) - (f.name.length + 1) = k by omega]
    dsimp only
    rw [scanHeaders_nil]
    cases isHost std f.name <;> simp

lemma seen_zero (fields : List Field) : seen std fields 0 = none := by
  induction fields with
  | nil => rfl
  | cons f rest ih =>
    rw [seen, Nat.zero_sub, ih]
    simp

lemma scanHeaders_take {fields : List Field} {n fuel : Nat}
    (enough : ((block fields).take n).length ≤ fuel) :
    scanHeaders std fuel ((block fields).take n) = (seen std fields n).bind (hostValue std) := by
  induction fields generalizing n fuel with
  | nil =>
    match n, fuel with
    | 0, fuel => exact scanHeaders_nil fuel
    | n + 1, 0 => simp [block] at enough
    | 1, fuel + 1 => exact scanHeaders_nil fuel
    | n + 2, fuel + 1 => simp [block, seen, scanHeaders, cutLine]
  | cons f rest ih =>
    have split : block (f :: rest) = encodeLine f.line ++ block rest := by simp [block]
    rw [split] at enough ⊢
    rw [seen]
    rcases Nat.lt_or_ge n (encodeLine f.line).length with short | whole
    · -- the block ends in this line
      rw [take_append_of_le_length short.le] at enough ⊢
      rw [scanHeaders_cut f short (by simpa [short.le] using enough), if_pos short,
        Nat.sub_eq_zero_of_le short.le, seen_zero]
      cases isHost std f.name <;> simp [apply_ite (Option.bind · (hostValue std))]
    · obtain ⟨k, rfl⟩ := Nat.exists_eq_add_of_le whole
      rw [take_length_add_append] at enough ⊢
      have positive : 0 < (encodeLine f.line).length := by simp [encodeLine]
      rw [length_append] at enough
      obtain ⟨fuel, rfl⟩ := Nat.exists_eq_add_one_of_ne_zero (by omega : fuel ≠ 0)
      have long : ¬(encodeLine f.line).length + k ≤ f.name.length := by
        simp [encodeLine, Field.line]
        omega
      rw [scanHeaders_line, ih (by omega), Nat.add_sub_cancel_left, if_neg long,
        if_neg (Nat.not_lt.mpr (Nat.le_add_right _ k))]
      cases isHost std f.name <;> simp

lemma httpHost_take (head : Head) (n : Nat) :
    httpHost std (head.encode.take n) =
      if (head.encode.take n).length < 16 ∨ looksLikeHTTPMethod (head.encode.take n) = false
      then none else (head.seen std n).bind (hostValue std) := by
  unfold httpHost Head.seen
  congr 1
  rw [Head.encode]
  rcases Nat.lt_or_ge n (encodeLine head.requestLine).length with short | whole
  · rw [take_append_of_le_length short.le, Nat.sub_eq_zero_of_le short.le, seen_zero,
      cutLine_cut head.plainLine (by simpa [encodeLine] using short)]
    rfl
  · obtain ⟨k, rfl⟩ := Nat.exists_eq_add_of_le whole
    rw [take_length_add_append, cutLine_append head.plainLine, Nat.add_sub_cancel_left]
    exact scanHeaders_take le_rfl

def sampleStrings : Strings where
  trimSpace := Machine.Text.trim fun b => b ∈ [9, 10, 11, 12, 13, 32]
  toLower := map fun b => if 65 ≤ b ∧ b ≤ 90 then b + 32 else b

def sampleHead (value : Bytes) (plain : 13 ∉ value) : Head :=
  ⟨ascii "GET / HTTP/1.1", by decide, [⟨ascii "Host", value, by decide, plain⟩]⟩

end Tamizdat.Sniff.Http
