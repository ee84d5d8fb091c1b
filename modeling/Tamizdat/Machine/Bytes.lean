/- layer: library
   digest: Folds that may fail, words, big-endian fields, streams in chunks, length prefixes. -/

import Mathlib.Data.List.Basic
import Mathlib.Data.List.Infix
import Mathlib.Tactic

set_option autoImplicit false
universe u v w

open List Option
namespace Tamizdat.Machine
namespace Scan
def leastRound (lowest x : Nat) : Nat := if lowest = 0 ∨ x < lowest then x else lowest
def least (xs : List Nat) : Nat := xs.foldl leastRound 0

lemma foldl_leastRound (xs : List Nat) (positive : ∀ x ∈ xs, 1 ≤ x) (start : Nat) :
    (xs.foldl leastRound start = start ∨ xs.foldl leastRound start ∈ xs) ∧
      (start ≠ 0 → xs.foldl leastRound start ≤ start ∧ xs.foldl leastRound start ≠ 0) ∧
      ∀ x ∈ xs, xs.foldl leastRound start ≤ x ∧ xs.foldl leastRound start ≠ 0 := by
  induction xs generalizing start with
  | nil => simp
  | cons y ys ih =>
    rw [foldl_cons]
    have head := positive y mem_cons_self
    obtain ⟨origin, below, least⟩ :=
      ih (fun x member => positive x (mem_cons_of_mem y member)) (leastRound start y)
    have round : leastRound start y = y ∨ (leastRound start y = start ∧ start ≠ 0 ∧ start ≤ y) := by
      unfold leastRound
      split_ifs with replaced
      · exact .inl rfl
      · exact .inr ⟨rfl, by omega, by omega⟩
    have shrinks : start ≠ 0 → leastRound start y ≤ start := by
      intro started
      unfold leastRound
      split_ifs <;> omega
    obtain ⟨le, ne⟩ := below (by omega)
    refine ⟨?_, fun started => ⟨le.trans (shrinks started), ne⟩, ?_⟩
    · rcases origin with unchanged | member
      · rcases round with same | ⟨same, -⟩
        · exact .inr (by rw [unchanged, same]; exact mem_cons_self)
        · exact .inl (by rw [unchanged, same])
      · exact .inr (mem_cons_of_mem y member)
    · intro x member
      rcases mem_cons.mp member with rfl | member
      · exact ⟨by omega, ne⟩
      · exact least x member

variable {x : Nat} {xs : List Nat} (positive : ∀ x ∈ xs, 1 ≤ x)
include positive
lemma least_le (member : x ∈ xs) : least xs ≤ x := ((foldl_leastRound xs positive 0).2.2 x member).1

lemma least_mem (found : least xs ≠ 0) : least xs ∈ xs :=
  (foldl_leastRound xs positive 0).1.resolve_left found

lemma least_ne_zero (member : x ∈ xs) : least xs ≠ 0 :=
  ((foldl_leastRound xs positive 0).2.2 x member).2
end Scan
namespace Folds
variable {ε α β γ : Type}

@[simp] lemma ok_bind (a : α) (f : α → Except ε β) : ((Except.ok a : Except ε α) >>= f) = f a := rfl

variable {a : α}
lemma toOption_eq_some {x : Except ε α} : x.toOption = some a ↔ x = .ok a := by
  cases x with
  | error e | ok b => simp [Except.toOption]

variable {b : β}
lemma bind_eq_ok {x : Except ε α} {f : α → Except ε β} :
    (x >>= f) = .ok b ↔ ∃ a, x = .ok a ∧ f a = .ok b := by
  cases x with
  | error e =>
    constructor
    · exact nofun
    · rintro ⟨a, impossible, -⟩
      cases impossible
  | ok a =>
    constructor
    · intro done
      exact ⟨a, rfl, done⟩
    · rintro ⟨a', same, done⟩
      cases same
      exact done

variable {f : β → α → Except ε β} {l : List α} {c : β}
lemma foldlM_cons_ok : (a :: l).foldlM f b = .ok c ↔ ∃ m, f b a = .ok m ∧ l.foldlM f m = .ok c := by
  rw [foldlM_cons, bind_eq_ok]

lemma foldlM_invariant {Inv : β → Prop} (preserve : ∀ {b a c}, Inv b → f b a = .ok c → Inv c)
    (start : Inv b) (done : l.foldlM f b = .ok c) : Inv c := by
  induction l generalizing b with
  | nil =>
    cases done
    exact start
  | cons a l ih =>
    obtain ⟨m, first, rest⟩ := foldlM_cons_ok.mp done
    exact ih (preserve start first) rest

lemma foldlM_parsed (parse : α → Option γ) (add : β → γ → β)
    (step : ∀ a ∈ l, ∀ b c, f b a = .ok c → ∃ x, parse a = some x ∧ c = add b x)
    (done : l.foldlM f b = .ok c) :
    ∃ xs, List.Forall₂ (fun a x => parse a = some x) l xs ∧ c = xs.foldl add b := by
  induction l generalizing b with
  | nil =>
    cases done
    exact ⟨[], .nil, rfl⟩
  | cons a l ih =>
    obtain ⟨m, first, rest⟩ := foldlM_cons_ok.mp done
    obtain ⟨x, parsed, rfl⟩ := step a mem_cons_self b m first
    obtain ⟨xs, later, rfl⟩ := ih (fun a' member => step a' (mem_cons_of_mem a member)) rest
    exact ⟨x :: xs, .cons parsed later, rfl⟩

variable {parse : α → Option γ} {xs : List γ}
lemma foldlM_of_parsed (add : β → γ → β) (parsed : List.Forall₂ (fun a x => parse a = some x) l xs)
    (step : ∀ a ∈ l, ∀ b x, parse a = some x → f b a = .ok (add b x)) (b : β) :
    l.foldlM f b = .ok (xs.foldl add b) := by
  induction parsed generalizing b with
  | nil => rfl
  | @cons a x l xs first _ ih =>
    rw [foldlM_cons_ok, foldl_cons]
    exact ⟨add b x, step a mem_cons_self b x first,
      ih (fun a' member => step a' (mem_cons_of_mem a member)) (add b x)⟩

lemma exists_parsed :
    (∃ xs, List.Forall₂ (fun a x => parse a = some x) l xs) ↔ ∀ a ∈ l, (parse a).isSome := by
  induction l with
  | nil => simp
  | cons a l ih =>
    rw [forall_mem_cons, ← ih, isSome_iff_exists]
    constructor
    · rintro ⟨_, _ | ⟨first, later⟩⟩
      exact ⟨⟨_, first⟩, ⟨_, later⟩⟩
    · rintro ⟨⟨x, first⟩, ⟨xs, later⟩⟩
      exact ⟨x :: xs, .cons first later⟩

section
variable (parsed : List.Forall₂ (fun a x => parse a = some x) l xs)
include parsed
lemma any_parsed (q : γ → Bool) : xs.any q = l.any fun a => (parse a).any q := by
  induction parsed with
  | nil => rfl
  | cons first _ ih => rw [any_cons, any_cons, first, ih, any_some]

lemma parsed_eq_nil : xs = [] ↔ l = [] := by
  cases parsed <;> simp
end

lemma mapM_some_of_ok {f : α → Except ε γ} {g : α → Option γ}
    (same : ∀ a x, f a = .ok x → g a = some x) (done : l.mapM f = .ok xs) :
    l.mapM g = some xs := by
  induction l generalizing xs with
  | nil =>
    cases done
    rfl
  | cons a l ih =>
    rw [mapM_cons] at done ⊢
    obtain ⟨x, first, rest⟩ := bind_eq_ok.mp done
    obtain ⟨ys, later, whole⟩ := bind_eq_ok.mp rest
    cases whole
    rw [same a x first, ih later]
    rfl

lemma mapM_cons_ok {f : α → Except ε γ} :
    (a :: l).mapM f = .ok xs ↔ ∃ x ys, f a = .ok x ∧ l.mapM f = .ok ys ∧ xs = x :: ys := by
  rw [mapM_cons, bind_eq_ok]
  constructor
  · rintro ⟨x, first, rest⟩
    obtain ⟨ys, later, whole⟩ := bind_eq_ok.mp rest
    cases whole
    exact ⟨x, ys, first, later, rfl⟩
  · rintro ⟨x, ys, first, later, rfl⟩
    exact ⟨x, first, bind_eq_ok.mpr ⟨ys, later, rfl⟩⟩

lemma exists_of_mem_mapM {f : α → Option γ} (done : l.mapM f = some xs) {x : γ}
    (member : x ∈ xs) : ∃ a ∈ l, f a = some x := by
  induction l generalizing xs with
  | nil =>
    cases done
    cases member
  | cons a l ih =>
    rw [mapM_cons] at done
    obtain ⟨y, first, rest⟩ := bind_eq_some_iff.mp done
    obtain ⟨ys, later, whole⟩ := bind_eq_some_iff.mp rest
    cases whole
    rcases mem_cons.mp member with rfl | inside
    · exact ⟨a, mem_cons_self, first⟩
    · obtain ⟨b, among, found⟩ := ih later inside
      exact ⟨b, mem_cons_of_mem a among, found⟩

variable {σ ι : Type}

/-- Try candidates in turn until one yields something. Failed attempts leave their marks on the
state as well. -/
def tryEach (attempt : σ → ι → σ × Option β) : σ → List ι → σ × Option β
  | s, [] => (s, none)
  | s, i :: rest =>
    match attempt s i with
    | (t, some b) => (t, some b)
    | (t, none) => tryEach attempt t rest

lemma tryEach_spec {attempt : σ → ι → σ × Option β} (view : σ → γ) (Found : σ → β → Prop)
    (each : ∀ s i, view (attempt s i).1 = view s ∧ ∀ b, (attempt s i).2 = some b →
      Found (attempt s i).1 b) (s : σ) (is : List ι) :
    view (tryEach attempt s is).1 = view s ∧
      ∀ b, (tryEach attempt s is).2 = some b → Found (tryEach attempt s is).1 b := by
  induction is generalizing s with
  | nil =>
    refine ⟨rfl, ?_⟩
    exact nofun
  | cons i rest ih =>
    obtain ⟨same, found⟩ := each s i
    rcases tried : attempt s i with ⟨t, outcome⟩
    rw [tried] at same found
    cases outcome with
    | some b =>
      simp only [tryEach, tried]
      exact ⟨same, found⟩
    | none =>
      simp only [tryEach, tried]
      obtain ⟨later, success⟩ := ih t
      exact ⟨later.trans same, success⟩
end Folds
namespace Word
def addW (w a b : Nat) : Nat := (a + b) % 2 ^ w
def subW (w a b : Nat) : Nat := (a + 2 ^ w - b) % 2 ^ w

variable {a b w : Nat}
lemma addW_of_lt (fits : a + b < 2 ^ w) : addW w a b = a + b := Nat.mod_eq_of_lt fits

lemma addW_lt (w a b : Nat) : addW w a b < 2 ^ w := Nat.mod_lt _ (Nat.two_pow_pos w)

lemma addW_ne_self (positive : 0 < b) (less : b < 2 ^ w) : addW w a b ≠ a := by
  intro same
  rcases Nat.lt_or_ge (a + b) (2 ^ w) with fits | wraps
  · rw [addW_of_lt fits] at same
    omega
  · rw [addW, Nat.mod_eq_sub_mod wraps, Nat.mod_eq_of_lt (by omega)] at same
    omega

lemma addW_addW (w a b c : Nat) : addW w (addW w a b) c = addW w a (b + c) := by
  rw [addW, addW, Nat.mod_add_mod, addW, Nat.add_assoc]

lemma subW_of_le (le : b ≤ a) (fits : a < 2 ^ w) : subW w a b = a - b := by
  have shift : a + 2 ^ w - b = (a - b) + 2 ^ w := by omega
  rw [subW, shift, Nat.add_mod_right]
  exact Nat.mod_eq_of_lt (by omega)
end Word
namespace Bytes
def putBE : Nat → Nat → List UInt8
  | 0, _ => []
  | width + 1, v => UInt8.ofNat (v / 256 ^ width) :: putBE width v

def getBE : List UInt8 → Nat
  | [] => 0
  | b :: bs => b.toNat * 256 ^ bs.length + getBE bs

@[simp] lemma length_putBE (width v : Nat) : (putBE width v).length = width := by
  induction width with
  | zero => rfl
  | succ width ih => rw [putBE, length_cons, ih]

lemma getBE_putBE_mod (width v : Nat) : getBE (putBE width v) = v % 256 ^ width := by
  induction width with
  | zero => rw [putBE, getBE, pow_zero, Nat.mod_one]
  | succ width ih =>
    have byte : (UInt8.ofNat (v / 256 ^ width)).toNat = v / 256 ^ width % 256 := UInt8.toNat_ofNat'
    rw [putBE, getBE, length_putBE, ih, byte, pow_succ, Nat.mod_mul]
    ring

lemma getBE_putBE {v width} (small : v < 256 ^ width) : getBE (putBE width v) = v := by
  rw [getBE_putBE_mod, Nat.mod_eq_of_lt small]

lemma getBE_lt (bs : List UInt8) : getBE bs < 256 ^ bs.length := by
  induction bs with
  | nil => exact Nat.one_pos
  | cons b bs ih =>
    have byte := b.toNat_lt
    rw [getBE, length_cons, pow_succ]
    nlinarith

lemma putBE_add_mul (width v x : Nat) : putBE width (v + x * 256 ^ width) = putBE width v := by
  induction width generalizing x with
  | zero => rfl
  | succ width ih =>
    rw [putBE, putBE, pow_succ', ← mul_assoc, ih, Nat.add_mul_div_right _ _ (by positivity),
      UInt8.ofNat_add]
    simp

lemma putBE_getBE (bs : List UInt8) : putBE bs.length (getBE bs) = bs := by
  induction bs with
  | nil => rfl
  | cons b bs ih =>
    rw [length_cons, putBE, getBE, add_comm, putBE_add_mul, ih,
      Nat.add_mul_div_right _ _ (by positivity), Nat.div_eq_of_lt (getBE_lt bs), zero_add,
      UInt8.ofNat_toNat]

lemma putBE_take {n} {bs : List UInt8} (enough : n ≤ bs.length) :
    getBE (bs.take n) < 256 ^ n ∧ putBE n (getBE (bs.take n)) = bs.take n := by
  have small := getBE_lt (bs.take n)
  have same := putBE_getBE (bs.take n)
  rw [length_take_of_le enough] at small same
  exact ⟨small, same⟩

inductive Ending (ε : Type)
  | closed
  | failed (reason : ε)
deriving DecidableEq

structure Incoming (ε : Type) where
  bytes : List UInt8
  ending : Ending ε

inductive ReadFull (ε : Type)
  | full (block : List UInt8) (rest : Incoming ε)
  | eof | unexpectedEOF
  | failed (reason : ε)

variable {ε : Type}
def readFull (n : Nat) (r : Incoming ε) : ReadFull ε :=
  if n ≤ r.bytes.length then .full (r.bytes.take n) ⟨r.bytes.drop n, r.ending⟩
  else
    match r.ending with
    | .closed => if r.bytes = [] then .eof else .unexpectedEOF
    | .failed reason => .failed reason

lemma readFull_append {n block} (exact : block.length = n) (rest : List UInt8) (ending : Ending ε) :
    readFull n ⟨block ++ rest, ending⟩ = .full block ⟨rest, ending⟩ := by
  rw [readFull, if_pos (by simp [exact])]
  rw [take_left' exact, drop_left' exact]

lemma readFull_cut {block} (positive : 0 < block.length) (rest : List UInt8) (m : Nat) (ending : Ending ε) :
    (block.length ≤ m ∧ readFull block.length ⟨(block ++ rest).take m, ending⟩ =
      .full block ⟨rest.take (m - block.length), ending⟩) ∨
    (m < block.length ∧ ending = .closed ∧ m = 0 ∧
      readFull block.length ⟨(block ++ rest).take m, ending⟩ = .eof) ∨
    (m < block.length ∧ (readFull block.length ⟨(block ++ rest).take m, ending⟩ = .unexpectedEOF ∨
        ∃ reason, readFull block.length ⟨(block ++ rest).take m, ending⟩ = .failed reason)) := by
  rcases Nat.lt_or_ge m block.length with short | enough
  · have missing : ¬ block.length ≤ ((block ++ rest).take m).length := by
      rw [length_take, length_append]
      omega
    rw [readFull, if_neg missing]
    cases ending with
    | failed reason => exact .inr (.inr ⟨short, .inr ⟨reason, rfl⟩⟩)
    | closed =>
      rcases Nat.eq_zero_or_pos m with rfl | some
      · exact .inr (.inl ⟨short, rfl, rfl, rfl⟩)
      · have left : (block ++ rest).take m ≠ [] := by
          intro nothing
          have length := congrArg List.length nothing
          rw [length_take, length_append, length_nil] at length
          omega
        exact .inr (.inr ⟨short, .inl (if_neg left)⟩)
  · refine .inl ⟨enough, ?_⟩
    rw [take_append, take_of_length_le enough]
    exact readFull_append rfl _ ending
end Bytes
namespace Buffers
variable {α : Type u}
def copyAt (p : List α) (i : Nat) (src : List α) : List α :=
  p.take i ++ (src.take (p.length - i) ++ p.drop (i + src.length))

variable {i : Nat} {p : List α}
lemma length_copyAt (inside : i ≤ p.length) (src : List α) :
    (copyAt p i src).length = p.length := by
  simp only [copyAt, length_append, length_take, length_drop]
  omega

@[simp] lemma copyAt_nil (p : List α) (i : Nat) : copyAt p i [] = p := by
  simp [copyAt]

lemma copyAt_zero (p src : List α) : copyAt p 0 src = src.take p.length ++ p.drop src.length := by
  simp [copyAt]

lemma copyAt_end (p src : List α) : copyAt p p.length src = p := by
  simp [copyAt]

lemma copyAt_copyAt (inside : i ≤ p.length) (a b : List α) :
    copyAt (copyAt p i a) (min p.length (i + a.length)) b = copyAt p i (a ++ b) := by
  have front : (p.take i).length = i := length_take_of_le inside
  by_cases fits : i + a.length ≤ p.length
  · have whole : a.take (p.length - i) = a := take_of_length_le (by omega)
    have cut : (p.take i ++ a).length = i + a.length := by rw [length_append, front]
    have first : copyAt p i a = p.take i ++ a ++ p.drop (i + a.length) := by
      rw [copyAt, whole, append_assoc]
    have rest : (copyAt p i a).drop (i + a.length + b.length) = p.drop (i + (a ++ b).length) := by
      rw [first, ← drop_drop, drop_left' cut, drop_drop, length_append, Nat.add_assoc]
    rw [Nat.min_eq_right fits, copyAt, rest, length_copyAt inside, first, take_left' cut,
      copyAt, take_append, whole, append_assoc, append_assoc, Nat.sub_sub]
  · have past : p.drop (i + a.length) = [] := drop_eq_nil_of_le (by omega)
    have pastBoth : p.drop (i + (a ++ b).length) = [] :=
      drop_eq_nil_of_le (by rw [length_append]; omega)
    have full := length_copyAt inside a
    rw [Nat.min_eq_left (by omega), ← full, copyAt_end, copyAt, copyAt, past, pastBoth,
      take_append_of_le_length (by omega)]
end Buffers
namespace Checked

inductive Panic where
  | nilPointer | indexOutOfRange | sliceOutOfRange | divideByZero
  deriving DecidableEq

variable {α : Type u}
def deref : Option α → Except Panic α
  | none => .error .nilPointer
  | some a => .ok a

def index (xs : List α) (i : Nat) : Except Panic α :=
  match xs[i]? with
  | none => .error .indexOutOfRange
  | some a => .ok a

/-- `xs[lo:hi]`. What lies behind the end of the slice counts as out of range even where the
capacity would allow it. -/
def slice (xs : List α) (lo hi : Nat) : Except Panic (List α) :=
  if lo ≤ hi ∧ hi ≤ xs.length then .ok ((xs.take hi).drop lo) else .error .sliceOutOfRange

def modulo (a n : Nat) : Except Panic Nat := if n = 0 then .error .divideByZero else .ok (a % n)

variable {xs front middle back : List α} {i lo hi : Nat} {a : α}
lemma index_of_getElem? (found : xs[i]? = some a) : index xs i = .ok a := by
  rw [index, found]

lemma slice_of_le (order : lo ≤ hi) (inside : hi ≤ xs.length) :
    slice xs lo hi = .ok ((xs.take hi).drop lo) := if_pos ⟨order, inside⟩

lemma slice_append (start : front.length = lo) (stop : front.length + middle.length = hi) :
    slice (front ++ (middle ++ back)) lo hi = .ok middle := by
  have inside : hi ≤ (front ++ (middle ++ back)).length := by
    rw [length_append, length_append]
    omega
  have cut : (front ++ middle).length = hi := by rw [length_append, stop]
  rw [slice_of_le (by omega) inside, ← append_assoc, take_left' cut, drop_left' start]

lemma slice_rest (start : front.length = lo) (back : List α) :
    slice (front ++ back) lo (front ++ back).length = .ok back := by
  have cut : slice (front ++ (back ++ [])) lo (front ++ back).length = .ok back :=
    slice_append start (by rw [length_append])
  rwa [append_nil] at cut

lemma index_append (place : front.length = i) : index (front ++ a :: back) i = .ok a := by
  apply index_of_getElem?
  rw [← place, getElem?_append_right (Nat.le_refl _), Nat.sub_self, getElem?_cons_zero]

lemma modulo_of_pos {a n : Nat} (positive : 0 < n) : modulo a n = .ok (a % n) := if_neg (by omega)
end Checked
namespace Framing
variable {φ : Type u} {β : Type v} {σ : Type w}
def stream (encode : φ → List β) (frames : List φ) : List β := frames.flatMap encode

def Unfinished (encode : φ → List β) (tail : List β) : List φ → Prop
  | [] => tail = []
  | f :: _ => tail <+: encode f ∧ tail.length < (encode f).length

/-- What has arrived of a stream consists of the frames that are complete and of an unfinished
tail. -/
structure Arrived (encode : φ → List β) (frames : List φ) (bytes : List β) (complete : List φ)
    (tail : List β) : Prop where
  bytes_eq : bytes = stream encode complete ++ tail
  rest : ∃ rest, frames = complete ++ rest ∧ Unfinished encode tail rest

variable {encode : φ → List β}
lemma stream_append (encode : φ → List β) (xs ys : List φ) :
    stream encode (xs ++ ys) = stream encode xs ++ stream encode ys := flatMap_append

lemma exists_arrived {bytes frames} (begins : bytes <+: stream encode frames) :
    ∃ complete tail, Arrived encode frames bytes complete tail := by
  induction frames generalizing bytes with
  | nil =>
    refine ⟨[], [], ?_, [], rfl, rfl⟩
    exact prefix_nil.mp begins
  | cons f later ih =>
    rcases Nat.lt_or_ge bytes.length (encode f).length with short | long
    · refine ⟨[], bytes, rfl, f :: later, rfl, ?_, short⟩
      exact prefix_of_prefix_length_le begins (prefix_append _ _) short.le
    · obtain ⟨more, rfl⟩ : encode f <+: bytes :=
        prefix_of_prefix_length_le (prefix_append _ _) begins long
      have onward : more <+: stream encode later := (prefix_append_right_inj _).mp begins
      obtain ⟨complete, tail, whole, rest, split, unfinished⟩ := ih onward
      refine ⟨f :: complete, tail, ?_, rest, ?_, unfinished⟩
      · rw [whole, stream, stream, flatMap_cons, append_assoc]
      · rw [split, cons_append]

lemma Arrived.whole {frames complete : List φ} {tail : List β}
    (arrived : Arrived encode frames (stream encode frames) complete tail) :
    complete = frames ∧ tail = [] := by
  obtain ⟨whole, rest, rfl, unfinished⟩ := arrived
  rw [stream_append, append_cancel_left_eq] at whole
  cases rest with
  | nil => exact ⟨(append_nil complete).symm, unfinished⟩
  | cons f later =>
    have short := unfinished.2
    rw [← whole, stream, flatMap_cons, length_append] at short
    omega

/-- Feed chunks to a consumer that is given its tail and the chunk and returns what it keeps. -/
def feed (consume : σ → List β → σ × List β) : σ × List β → List (List β) → σ × List β
  | kept, [] => kept
  | kept, chunk :: later => feed consume (consume kept.1 (kept.2 ++ chunk)) later

/-- A consumer that takes the complete frames from what it is given and keeps the tail does so
however the stream is cut into chunks. -/
lemma feed_spec {consume : σ → List β → σ × List β} {mark : σ → φ → σ}
    (takes : ∀ s complete rest tail, Unfinished encode tail rest →
      consume s (stream encode complete ++ tail) = (complete.foldl mark s, tail))
    {frames : List φ} {s : σ} {tail : List β} {chunks : List (List β)}
    (unfinished : Unfinished encode tail frames)
    (begins : tail ++ chunks.flatten <+: stream encode frames) :
    ∃ complete left, Arrived encode frames (tail ++ chunks.flatten) complete left ∧
      feed consume (s, tail) chunks = (complete.foldl mark s, left) := by
  induction chunks generalizing frames s tail with
  | nil =>
    refine ⟨[], tail, ⟨?_, frames, rfl, unfinished⟩, rfl⟩
    rw [flatten_nil, append_nil]
    rfl
  | cons chunk later ih =>
    rw [flatten_cons, ← append_assoc] at begins ⊢
    obtain ⟨first, between, whole, rest, rfl, cutOff⟩ :=
      exists_arrived ((prefix_append _ _).trans begins)
    rw [whole, stream_append, append_assoc] at begins
    obtain ⟨second, left, ⟨bytes, last, rfl, ends⟩, ended⟩ :=
      ih cutOff ((prefix_append_right_inj _).mp begins)
    refine ⟨first ++ second, left, ⟨?_, last, (append_assoc _ _ _).symm, ends⟩, ?_⟩
    · rw [whole, append_assoc, bytes, stream_append, append_assoc]
    · rw [feed, whole, takes s first _ between cutOff, ended, foldl_append]
end Framing
namespace ChunkReader
variable {α : Type u}

/-- The receiving end of a byte stream: what was left over from the last chunk and the chunks
that wait. `got` records what the reads have returned, and `eofAfter` how much of it had been
returned when the first read reported the end. -/
structure Reader (α : Type u) where
  left : List α
  queue : List (List α)
  got : List α
  eofAfter : Option (List α)

namespace Reader
def empty : Reader α where
  left := []
  queue := []
  got := []
  eofAfter := none

variable (r : Reader α)
def content : List α := r.left ++ r.queue.flatten
def stream : List α := r.got ++ r.content
def push (chunk : List α) : Reader α := { r with queue := r.queue ++ [chunk] }

/-- Fill a buffer of `n` places from the leftover, else from the next chunk. There is no result
when neither is there. -/
def read (n : Nat) : Option (Reader α) :=
  match r.left, r.queue with
  | [], [] => none
  | [], chunk :: rest =>
    some { r with left := chunk.drop n, queue := rest, got := r.got ++ chunk.take n }
  | _ :: _, _ => some { r with left := r.left.drop n, got := r.got ++ r.left.take n }

def eof : Reader α := { r with eofAfter := r.eofAfter.or (some r.got) }
def backlog : Nat := r.content.length + r.queue.length

@[simp] lemma stream_push (chunk : List α) : (r.push chunk).stream = r.stream ++ chunk := by
  simp [stream, content, push]

lemma eofAfter_eof_ne_none : r.eof.eofAfter ≠ none := by
  cases known : r.eofAfter <;> simp [eof, known]

variable {r t : Reader α} {n : Nat}
lemma read_cases (done : r.read n = some t) :
    (r.left ≠ [] ∧ t = { r with left := r.left.drop n, got := r.got ++ r.left.take n }) ∨
      ∃ chunk rest, r.left = [] ∧ r.queue = chunk :: rest ∧
        t = { r with left := chunk.drop n, queue := rest, got := r.got ++ chunk.take n } := by
  unfold read at done
  split at done
  · cases done
  · rename_i chunk rest noLeft waiting
    exact .inr ⟨chunk, rest, noLeft, waiting, (some.inj done).symm⟩
  · rename_i something
    refine .inl ⟨?_, (some.inj done).symm⟩
    simp [something]

lemma stream_read (done : r.read n = some t) : t.stream = r.stream := by
  rcases read_cases done with ⟨-, rfl⟩ | ⟨chunk, rest, noLeft, waiting, rfl⟩
  · simp only [stream, content, append_assoc]
    rw [← append_assoc (r.left.take n), take_append_drop]
  · simp only [stream, content, noLeft, waiting, flatten_cons, nil_append, append_assoc]
    rw [← append_assoc (chunk.take n), take_append_drop]

lemma eofAfter_read (done : r.read n = some t) : t.eofAfter = r.eofAfter := by
  rcases read_cases done with ⟨-, rfl⟩ | ⟨chunk, rest, -, -, rfl⟩ <;> rfl

lemma read_eq_none_iff : r.read n = none ↔ r.left = [] ∧ r.queue = [] := by
  unfold read
  split <;> simp_all

lemma backlog_read_lt (positive : 0 < n) (done : r.read n = some t) : t.backlog < r.backlog := by
  rcases read_cases done with ⟨more, rfl⟩ | ⟨chunk, rest, noLeft, waiting, rfl⟩
  · have nonempty : 0 < r.left.length := length_pos_iff.mpr more
    simp only [backlog, content, length_append, length_drop]
    omega
  · simp only [backlog, content, noLeft, waiting, length_append, length_drop,
      flatten_cons, length_cons, length_nil]
    omega

lemma backlog_read_le (done : r.read n = some t) : t.backlog ≤ r.backlog := by
  rcases read_cases done with ⟨-, rfl⟩ | ⟨chunk, rest, noLeft, waiting, rfl⟩
  · simp only [backlog, content, length_append, length_drop]
    omega
  · simp only [backlog, content, noLeft, waiting, length_append, length_drop,
      flatten_cons, length_cons, length_nil]
    omega

lemma queue_read {chunk} (done : r.read n = some t) (waiting : chunk ∈ t.queue) : chunk ∈ r.queue := by
  rcases read_cases done with ⟨-, rfl⟩ | ⟨head, rest, -, queued, rfl⟩
  · exact waiting
  · rw [queued]
    exact mem_cons_of_mem head waiting

lemma got_read_lt (positive : 0 < n) (solid : ∀ chunk ∈ r.queue, chunk ≠ [])
    (done : r.read n = some t) : r.got.length < t.got.length := by
  rcases read_cases done with ⟨more, rfl⟩ | ⟨chunk, rest, -, queued, rfl⟩
  · have nonempty : 0 < r.left.length := length_pos_iff.mpr more
    simp only [length_append, length_take]
    omega
  · have nonempty : 0 < chunk.length :=
      length_pos_iff.mpr (solid chunk (by rw [queued]; exact mem_cons_self))
    simp only [length_append, length_take]
    omega

lemma got_read_le (done : r.read n = some t) : r.got.length ≤ t.got.length := by
  rcases read_cases done with ⟨-, rfl⟩ | ⟨chunk, rest, -, -, rfl⟩ <;> simp

lemma got_eq_stream (noLeft : r.left = []) (noChunk : r.queue = []) : r.got = r.stream := by
  simp [stream, content, noLeft, noChunk]

lemma got_prefix_stream (r : Reader α) : r.got <+: r.stream := prefix_append _ _
end Reader
end ChunkReader
namespace Vectors
open Machine.Bytes Machine.Checked Machine.Folds

/-- How a parser ends without a value: with an error that it returns, with a panic, or not at
all. -/
inductive Fault where
  | returned (message : String)
  | panic (reason : Panic)
  | endless
  deriving DecidableEq

variable {α β : Type}
def checked (x : Except Panic α) : Except Fault α := x.mapError .panic

def failIf (c : Prop) [Decidable c] (message : String) : Except Fault Unit :=
  if c then .error (.returned message) else .ok ()

def field (width : Nat) (bytes : List UInt8) : Except Fault Nat := do
  let front ← checked (slice bytes 0 width)
  return getBE front

def vector (width : Nat) (missing truncated : String) (bytes : List UInt8) :
    Except Fault (List UInt8 × List UInt8) := do
  failIf (bytes.length < width) missing
  let n ← field width bytes
  failIf (bytes.length < width + n) truncated
  let block ← checked (slice bytes width (width + n))
  let rest ← checked (slice bytes (width + n) bytes.length)
  return (block, rest)

/-- A list of records, each a kind and a vector behind a two-byte length. The loop ends with what
the first visit finds, or when no full header is left. -/
def records (kindWidth : Nat) (truncated : String)
    (visit : Nat → List UInt8 → Except Fault (Option β)) :
    Nat → List UInt8 → Except Fault (Option β)
  | 0, bytes => if bytes.length < kindWidth + 2 then .ok none else .error .endless
  | fuel + 1, bytes =>
    if bytes.length < kindWidth + 2 then .ok none
    else do
      let kind ← field kindWidth bytes
      let tail ← checked (slice bytes kindWidth bytes.length)
      let (body, rest) ← vector 2 truncated truncated tail
      let found ← visit kind body
      match found with
      | some b => return some b
      | none => records kindWidth truncated visit fuel rest

def Safe (x : Except Fault α) : Prop := ∀ fault, x = .error fault → ∃ m, fault = .returned m

namespace Safe
lemma ok (a : α) : Safe (.ok a : Except Fault α) := nofun

lemma error (m : String) : Safe (.error (.returned m) : Except Fault α) := by
  intro fault failed
  cases failed
  exact ⟨m, rfl⟩

lemma guarded {c : Prop} {rest : Unit → Except Fault α} {m} [Decidable c]
    (later : ¬ c → Safe (rest ())) :
    Safe (Vectors.failIf c m >>= rest) := by
  unfold Vectors.failIf
  split_ifs with fails
  · exact error m
  · exact later fails

lemma bind {x : Except Fault α} {f : α → Except Fault β} (first : Safe x) (later : ∀ a, x = .ok a → Safe (f a)) : Safe (x >>= f) := by
  cases x with
  | error fault =>
    intro other failed
    cases failed
    exact first fault rfl
  | ok a => exact later a rfl
end Safe

lemma failIf_eq_ok {c : Prop} {m} [Decidable c] : failIf c m = .ok () ↔ ¬ c := by
  unfold failIf
  split_ifs with holds <;> simp [holds]

@[simp] lemma checked_ok (a : α) : checked (.ok a) = .ok a := rfl

lemma Safe.index {i} {xs : List α} (inside : i < xs.length) : Safe (checked (index xs i)) := by
  rw [index_of_getElem? (getElem?_eq_getElem inside)]
  exact Safe.ok _

lemma Safe.slice {lo hi} {xs : List α} (order : lo ≤ hi) (inside : hi ≤ xs.length) : Safe (checked (slice xs lo hi)) := by
  rw [slice_of_le order inside]
  exact Safe.ok _

variable {width : Nat}
lemma field_append {head : List UInt8} (exact : head.length = width) (rest : List UInt8) :
    field width (head ++ rest) = .ok (getBE head) := by
  have cut : slice ([] ++ (head ++ rest)) 0 width = .ok head :=
    slice_append rfl (by simpa using exact)
  rw [nil_append] at cut
  rw [field, cut]
  rfl

/-- The bytes begin with a length field of this width and the vector it announces. -/
def Prefixed (width : Nat) (block rest bytes : List UInt8) : Prop :=
  ∃ head, bytes = head ++ (block ++ rest) ∧ head.length = width ∧ getBE head = block.length

variable {bytes : List UInt8}
lemma prefixed_of_le (long : width ≤ bytes.length)
    (enough : width + getBE (bytes.take width) ≤ bytes.length) :
    Prefixed width ((bytes.drop width).take (getBE (bytes.take width)))
      ((bytes.drop width).drop (getBE (bytes.take width))) bytes := by
  refine ⟨bytes.take width, ?_, length_take_of_le long, ?_⟩
  · rw [take_append_drop, take_append_drop]
  · rw [length_take_of_le]
    rw [length_drop]
    omega

variable {block rest : List UInt8}
lemma vector_of_prefixed (layout : Prefixed width block rest bytes)
    (missing truncated : String) : vector width missing truncated bytes = .ok (block, rest) := by
  obtain ⟨head, rfl, exact, size⟩ := layout
  have whole : (head ++ (block ++ rest)).length = width + block.length + rest.length := by
    rw [length_append, length_append]
    omega
  have long : failIf ((head ++ (block ++ rest)).length < width) missing = .ok () :=
    failIf_eq_ok.mpr (by omega)
  have enough : failIf ((head ++ (block ++ rest)).length < width + block.length) truncated =
      .ok () := failIf_eq_ok.mpr (by omega)
  have front : slice (head ++ (block ++ rest)) width (width + block.length) = .ok block :=
    slice_append exact (by omega)
  have ends : (head ++ block).length = width + block.length := by rw [length_append, exact]
  have back := slice_rest ends rest
  rw [append_assoc] at back
  simp only [vector, long, ok_bind, field_append exact, size, enough, front, back, checked_ok]
  rfl

lemma vector_cases (width : Nat) (missing truncated : String) (bytes : List UInt8) :
    vector width missing truncated bytes = .error (.returned missing) ∨
    vector width missing truncated bytes = .error (.returned truncated) ∨
    ∃ block rest, Prefixed width block rest bytes ∧
      vector width missing truncated bytes = .ok (block, rest) := by
  by_cases short : bytes.length < width
  · refine .inl ?_
    rw [vector, failIf, if_pos short]
    rfl
  · have exact : (bytes.take width).length = width := length_take_of_le (by omega)
    have front := field_append exact (bytes.drop width)
    rw [take_append_drop] at front
    by_cases less : bytes.length < width + getBE (bytes.take width)
    · refine .inr (.inl ?_)
      rw [vector, failIf_eq_ok.mpr short, ok_bind, front, ok_bind, failIf, if_pos less]
      rfl
    · have layout := prefixed_of_le (not_lt.mp short) (not_lt.mp less)
      exact .inr (.inr ⟨_, _, layout, vector_of_prefixed layout _ _⟩)

lemma vector_eq_ok {missing truncated} :
    vector width missing truncated bytes = .ok (block, rest) ↔ Prefixed width block rest bytes := by
  constructor
  · intro parsed
    rcases vector_cases width missing truncated bytes with none | cut | ⟨_, _, layout, read⟩
    · rw [none] at parsed
      cases parsed
    · rw [cut] at parsed
      cases parsed
    · rw [read] at parsed
      cases parsed
      exact layout
  · intro layout
    exact vector_of_prefixed layout missing truncated

lemma Prefixed.length_eq (layout : Prefixed width block rest bytes) :
    bytes.length = width + block.length + rest.length := by
  obtain ⟨head, rfl, exact, -⟩ := layout
  rw [length_append, length_append]
  omega

lemma Safe.vector (width : Nat) (missing truncated : String) (bytes : List UInt8) :
    Safe (vector width missing truncated bytes) := by
  rcases vector_cases width missing truncated bytes with none | cut | ⟨_, _, -, read⟩
  · rw [none]
    exact Safe.error missing
  · rw [cut]
    exact Safe.error truncated
  · rw [read]
    exact Safe.ok _

lemma Safe.records {kindWidth : Nat} {truncated : String}
    {visit : Nat → List UInt8 → Except Fault (Option β)} (visits : ∀ kind body,
      Safe (visit kind body)) {fuel : Nat} (enough : bytes.length ≤ fuel) :
    Safe (records kindWidth truncated visit fuel bytes) := by
  induction fuel generalizing bytes with
  | zero =>
    rw [Vectors.records, if_pos (by omega)]
    exact Safe.ok none
  | succ fuel ih =>
    rw [Vectors.records]
    split_ifs with short
    · exact Safe.ok none
    · have exact : (bytes.take kindWidth).length = kindWidth := length_take_of_le (by omega)
      have kind := field_append exact (bytes.drop kindWidth)
      have tail := slice_rest exact (bytes.drop kindWidth)
      rw [take_append_drop] at tail
      rw [take_append_drop] at kind
      rw [kind, ok_bind, tail, checked_ok, ok_bind]
      refine Safe.bind (Safe.vector _ _ _ _) ?_
      rintro ⟨body, rest⟩ parsed
      have shorter := (vector_eq_ok.mp parsed).length_eq
      rw [length_drop] at shorter
      refine Safe.bind (visits _ _) ?_
      intro found _
      cases found with
      | some b => exact Safe.ok _
      | none => exact ih (by omega)
end Vectors
end Tamizdat.Machine
