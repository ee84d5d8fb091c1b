/- source: internal/localtun/client.go, pkg/tamizdat/server.go
   digest: The two parsers of a port, of the local TUN and of the server. -/

import Tamizdat.Routing.Rules

set_option autoImplicit false

open List Option
namespace Tamizdat.Localtun.Ports
open Routing (Text digits)
def int64 (n : Int) : Int := n.bmod (2 ^ 64)

/-- The loop over the runes that both parsers have. What is not UTF-8 is read as U+FFFD. -/
def accumulate (n : Int) : Text → Option Int
  | [] => some n
  | r :: rest =>
    if r < '0' ∨ '9' < r then none
    else accumulate (int64 (n * 10 + (r.toNat - '0'.toNat : Nat))) rest

def parsePort (raw : Text) : Except String Int :=
  match accumulate 0 raw with
  | none => .error "invalid port"
  | some port => if port < 1 ∨ 65535 < port then .error "invalid port" else .ok port

def atoiPort (s : Text) : Except String Int :=
  match accumulate 0 s with
  | none => .error "bad digit"
  | some n => if s = [] then .error "empty" else .ok n

lemma int64_step (n d : Nat) : int64 (int64 n * 10 + d) = int64 ((10 * n + d : Nat) : Int) := by
  rw [int64, int64, int64, ← Int.bmod_add_bmod, Int.bmod_mul_bmod, Int.bmod_add_bmod, mul_comm]
  rfl

lemma accumulate_eq (s : Text) (n : Nat) : accumulate (int64 n) s =
      if s.all Char.isDigit then
        some (int64 (s.foldl (fun n c => 10 * n + (c.toNat - '0'.toNat)) n : Nat))
      else none := by
  induction s generalizing n with
  | nil => rfl
  | cons r rest ih =>
    have digit : r.isDigit = true ↔ ¬(r < '0' ∨ '9' < r) := by
      simp [Char.isDigit, Char.lt_def]
    rw [accumulate, all_cons, foldl_cons, int64_step, ih]
    grind

lemma accumulate_of_ne_nil {s : Text} (filled : s ≠ []) :
    accumulate 0 s = (digits s).map fun n : Nat => int64 n := by
  refine (accumulate_eq s 0).trans ?_
  by_cases all : s.all Char.isDigit = true <;> simp [digits, filled, all]

/-- The ports that the local TUN accepts are those that are written in decimal digits, unless what
is left of a value above 65535 modulo 2^64 is a port; for the server's parser, unless the value
does not fit into an `int`. -/
theorem ports_exact_iff (s : Text) :
    ((∀ p, parsePort s = .ok p ↔ ∃ n : Nat, digits s = some n ∧ 1 ≤ n ∧ n ≤ 65535 ∧ p = n) ↔
      ∀ n, digits s = some n → 65535 < n → n % 2 ^ 64 = 0 ∨ 65535 < n % 2 ^ 64) ∧
    ((∀ p, atoiPort s = .ok p ↔ ∃ n : Nat, digits s = some n ∧ p = n) ↔
      ∀ n, digits s = some n → n < 2 ^ 63) := by
  rcases eq_or_ne s [] with rfl | filled
  · simp [parsePort, atoiPort, accumulate, digits]
  simp only [parsePort, atoiPort, accumulate_of_ne_nil filled, filled, if_false]
  cases digits s with
  | none => simp
  | some n =>
    have held : int64 n = if (n : Int) % 2 ^ 64 < 2 ^ 63 then (n : Int) % 2 ^ 64
        else (n : Int) % 2 ^ 64 - 2 ^ 64 := by
      simp only [int64, Int.bmod]
      omega
    simp only [map_some, some.injEq, exists_eq_left', forall_eq', Except.ok.injEq]
    refine ⟨⟨fun exact large => ?_, fun fits p => ?_⟩, fun exact => ?_, fun fits p => ?_⟩
    · -- a port that is left over is accepted
      by_contra port
      have bounds := (exact (int64 n)).mp (by rw [if_neg (by omega)])
      omega
    · split_ifs <;> simp <;> omega
    · have same := (exact (int64 n)).mp rfl
      omega
    · omega

theorem ports_wrap : parsePort "18446744073709551617".toList = .ok 1 ∧
    digits "18446744073709551617".toList = some (2 ^ 64 + 1) ∧
    atoiPort "18446744073709551616".toList = .ok 0 ∧
    digits "18446744073709551616".toList = some (2 ^ 64) := by
  decide +kernel
end Tamizdat.Localtun.Ports
