/- source: pkg/tamizdat/auth.go, pkg/tamizdat/auth_extension.go, pkg/tamizdat/sni_parse.go
   digest: Three parsers of one ClientHello, and the blocks they see in it. -/

import Tamizdat.Machine.Bytes

set_option autoImplicit false

open List
namespace Tamizdat.Server.ClientHello
open Machine.Bytes Machine.Checked Machine.Folds Machine.Vectors
open Safe (bind error guarded ok)
abbrev Bytes := List UInt8
def x25519KeyLen : Nat := 32

def extractSessionID (clientHello : Bytes) : Except Fault Bytes := do
  failIf (clientHello.length < 6) "ClientHello too short"
  let first ← checked (index clientHello 0)
  failIf (first = 0x01 ∧ clientHello.length < 4) "ClientHello too short for handshake header"
  let pos := (if first = 0x01 then 4 else 0) + (2 + 32)
  failIf (clientHello.length ≤ pos) "ClientHello too short for session_id length"
  let sessionIDLength ← checked (index clientHello pos)
  failIf (clientHello.length < pos + 1 + sessionIDLength.toNat)
    "ClientHello session_id exceeds data"
  checked (slice clientHello (pos + 1) (pos + 1 + sessionIDLength.toNat))

/-- What follows a header of this type, whose length field stands between `lo` and its end `hi`;
without such a header, the data itself. -/
def payloadOf (kind : UInt8) (lo hi : Nat) (short exceeds : String) (data : Bytes) :
    Except Fault Bytes := do
  let first ← checked (index data 0)
  if first = kind then do
    failIf (data.length < hi) short
    let lengthField ← checked (slice data lo hi)
    failIf (data.length < hi + getBE lengthField) exceeds
    checked (slice data hi (hi + getBE lengthField))
  else return data

def recordPayload : Bytes → Except Fault Bytes :=
  payloadOf 0x16 3 5 "TLS record too short" "TLS record length exceeds data"

def handshakePayload : Bytes → Except Fault Bytes :=
  payloadOf 0x01 1 4 "ClientHello too short for handshake header"
    "ClientHello handshake length exceeds data"

def clientHelloBody (data : Bytes) : Except Fault Bytes := do
  failIf (data.length = 0) "ClientHello empty"
  let payload ← recordPayload data
  failIf (payload.length = 0) "ClientHello empty after TLS record header"
  handshakePayload payload

structure Preamble where
  sessionID : Bytes
  cipherSuites : Bytes
  compression : Bytes

structure Blocks extends Preamble where
  extensions : Bytes

structure Texts where
  header : String
  missingSessionID : String
  truncatedSessionID : String
  missingCipherSuites : String
  truncatedCipherSuites : String
  missingCompression : String
  truncatedCompression : String

def walkPreamble (texts : Texts) (body : Bytes) : Except Fault (Preamble × Bytes) := do
  failIf (body.length < 34) texts.header
  let body ← checked (slice body 34 body.length)
  let (sessionID, body) ← vector 1 texts.missingSessionID texts.truncatedSessionID body
  let (cipherSuites, body) ← vector 2 texts.missingCipherSuites texts.truncatedCipherSuites body
  let (compression, body) ← vector 1 texts.missingCompression texts.truncatedCompression body
  return (⟨sessionID, cipherSuites, compression⟩, body)

/-! ### The key share -/

def keyShareTexts : Texts where
  header := "clientHello body truncated (header)"
  missingSessionID := "clientHello: missing session_id length"
  truncatedSessionID := "clientHello: session_id truncated"
  missingCipherSuites := "clientHello: missing cipher_suites length"
  truncatedCipherSuites := "clientHello: cipher_suites truncated"
  missingCompression := "clientHello: missing compression length"
  truncatedCompression := "clientHello: compression truncated"

variable (payload : Bytes)

def keyShareBlocks : Except Fault Blocks := do
  let body ← clientHelloBody payload
  let (preamble, body) ← walkPreamble keyShareTexts body
  let (exts, _) ← vector 2 "clientHello: missing extensions length"
    "clientHello: extensions truncated" body
  return ⟨preamble, exts⟩

def visitShare (group : Nat) (keyExchange : Bytes) : Except Fault (Option Bytes) :=
  .ok (if group = 0x001D ∧ keyExchange.length = x25519KeyLen then some keyExchange else none)

variable (extType : Nat)
def visitKeyShare (extBody : Bytes) : Except Fault (Option Bytes) :=
  if extType ≠ 0x0033 then .ok none
  else do
    let (list, _) ← vector 2 "key_share extension empty" "key_share list truncated" extBody
    let found ← records 2 "key_share entry truncated" visitShare list.length list
    match found with
    | some key => return some key
    | none => .error (.returned "key_share has no standalone X25519 entry")

def findX25519 (exts : Bytes) : Except Fault Bytes := do
  let found ← records 2 "extension truncated" visitKeyShare exts.length exts
  match found with
  | some key => return key
  | none => .error (.returned "key_share extension not present")

def extractX25519FromKeyShare : Except Fault Bytes := do
  let blocks ← keyShareBlocks payload
  findX25519 blocks.extensions

/-! ### The server name -/

def sniTexts : Texts where
  header := "clientHello: header truncated"
  missingSessionID := "clientHello: missing session_id"
  truncatedSessionID := "clientHello: session_id truncated"
  missingCipherSuites := "clientHello: missing cipher_suites"
  truncatedCipherSuites := "clientHello: cipher_suites truncated"
  missingCompression := "clientHello: missing compression_methods"
  truncatedCompression := "clientHello: compression_methods truncated"

def sniBody : Except Fault Bytes := do
  failIf (payload.length < 4) "clientHello: payload too short"
  let first ← checked (index payload 0)
  failIf (first ≠ 1) "clientHello: not a ClientHello message"
  let lengthField ← checked (slice payload 1 4)
  let body ← checked (slice payload 4 payload.length)
  failIf (body.length < getBE lengthField) "clientHello: body truncated"
  checked (slice body 0 (getBE lengthField))

/-- The blocks that `parseSNIFromClientHello` goes past, and the extensions it comes to, if
there are any. -/
def sniBlocks : Except Fault (Option Blocks) := do
  let body ← sniBody payload
  let (preamble, body) ← walkPreamble sniTexts body
  if body.length < 2 then return none
  else do
    let (exts, _) ← vector 2 "clientHello: extensions truncated"
      "clientHello: extensions truncated" body
    return some ⟨preamble, exts⟩

def visitName (nameType : Nat) (nameVal : Bytes) : Except Fault (Option Bytes) :=
  .ok (if nameType = 0 then some nameVal else none)

def visitServerName (extBody : Bytes) : Except Fault (Option Bytes) :=
  if extType ≠ 0 then .ok none
  else do
    let (list, _) ← vector 2 "SNI extension empty" "SNI list truncated" extBody
    let found ← records 1 "SNI name truncated" visitName list.length list
    return some (found.getD [])

def findServerName (exts : Bytes) : Except Fault Bytes := do
  let found ← records 2 "clientHello: extension truncated" visitServerName exts.length exts
  return found.getD []

def parseSNIFromClientHello : Except Fault Bytes := do
  let blocks ← sniBlocks payload
  match blocks with
  | none => return []
  | some blocks => findServerName blocks.extensions

/-! ### What the walks see -/

/-- The body is a version and a random, the blocks of the preamble, each behind its length, and
the rest. -/
def Preamble.Laid (p : Preamble) (body rest : Bytes) : Prop :=
  ∃ fixed afterFixed afterID afterSuites, body = fixed ++ afterFixed ∧ fixed.length = 34 ∧
    Prefixed 1 p.sessionID afterID afterFixed ∧ Prefixed 2 p.cipherSuites afterSuites afterID ∧
    Prefixed 1 p.compression rest afterSuites

def Blocks.Laid (b : Blocks) (body : Bytes) : Prop :=
  ∃ rest trailing, b.toPreamble.Laid body rest ∧ Prefixed 2 b.extensions trailing rest

variable {body : Bytes}
lemma walkPreamble_eq_ok {texts p rest} : walkPreamble texts body = .ok
    (p, rest) ↔ p.Laid body rest := by
  constructor
  · intro walked
    obtain ⟨⟨⟩, long, walked⟩ := bind_eq_ok.mp walked
    have exact : (body.take 34).length = 34 := length_take_of_le (not_lt.mp (failIf_eq_ok.mp long))
    have cut := slice_rest exact (body.drop 34)
    rw [take_append_drop] at cut
    rw [cut, checked_ok, ok_bind] at walked
    obtain ⟨⟨sessionID, afterID⟩, first, walked⟩ := bind_eq_ok.mp walked
    obtain ⟨⟨cipherSuites, afterSuites⟩, second, walked⟩ := bind_eq_ok.mp walked
    obtain ⟨⟨compression, after⟩, third, ⟨⟩⟩ := bind_eq_ok.mp walked
    exact ⟨body.take 34, body.drop 34, afterID, afterSuites, (take_append_drop _ _).symm,
      exact, vector_eq_ok.mp first, vector_eq_ok.mp second, vector_eq_ok.mp third⟩
  · rintro ⟨fixed, afterFixed, afterID, afterSuites, rfl, exact, first, second, third⟩
    have long : failIf ((fixed ++ afterFixed).length < 34) texts.header = .ok () := by
      rw [failIf_eq_ok, length_append]
      omega
    simp only [walkPreamble, long, ok_bind, slice_rest exact, checked_ok,
      vector_of_prefixed first, vector_of_prefixed second, vector_of_prefixed third]
    rfl

variable {b : Blocks} {payload : Bytes} {kind first : UInt8} {lo hi : Nat} {short exceeds : String}
lemma keyShareBlocks_eq_ok : keyShareBlocks payload = .ok b ↔
      ∃ body, clientHelloBody payload = .ok body ∧ b.Laid body := by
  constructor
  · intro walked
    obtain ⟨body, found, walked⟩ := bind_eq_ok.mp walked
    obtain ⟨⟨preamble, rest⟩, first, walked⟩ := bind_eq_ok.mp walked
    obtain ⟨⟨exts, trailing⟩, second, ⟨⟩⟩ := bind_eq_ok.mp walked
    exact ⟨body, found, rest, trailing, walkPreamble_eq_ok.mp first, vector_eq_ok.mp second⟩
  · rintro ⟨body, found, rest, trailing, first, second⟩
    simp only [keyShareBlocks, found, ok_bind, walkPreamble_eq_ok.mpr first,
      vector_of_prefixed second]
    rfl

lemma sniBlocks_of_laid (found : sniBody payload = .ok body) (laid : b.Laid body) :
    sniBlocks payload = .ok (some b) := by
  obtain ⟨rest, trailing, first, second⟩ := laid
  have long : ¬ rest.length < 2 := by
    rw [second.length_eq]
    omega
  simp only [sniBlocks, found, ok_bind, walkPreamble_eq_ok.mpr first, if_neg long,
    vector_of_prefixed second]
  rfl

variable {tail : Bytes}
lemma prefixed_of_handshakePayload (found : handshakePayload (0x01 :: tail) = .ok body) :
    ∃ trailing, Prefixed 3 body trailing tail := by
  have front : index (0x01 :: tail) 0 = .ok (0x01 : UInt8) := rfl
  rw [handshakePayload, payloadOf, front, checked_ok, ok_bind, if_pos rfl] at found
  obtain ⟨⟨⟩, long, found⟩ := bind_eq_ok.mp found
  have three : 3 ≤ tail.length := by
    have enough := failIf_eq_ok.mp long
    rw [length_cons] at enough
    omega
  have lengthField : slice (0x01 :: tail) 1 4 = .ok (tail.take 3) := by
    rw [slice_of_le (by omega) (by rw [length_cons]; omega)]
    rfl
  rw [lengthField, checked_ok, ok_bind] at found
  obtain ⟨⟨⟩, fits, found⟩ := bind_eq_ok.mp found
  have enough := failIf_eq_ok.mp fits
  rw [length_cons] at enough
  have cut : slice (0x01 :: tail) 4 (4 + getBE (tail.take 3)) =
      .ok ((tail.drop 3).take (getBE (tail.take 3))) := by
    rw [slice_of_le (by omega) (by rw [length_cons]; omega), drop_take, Nat.add_sub_cancel_left]
    rfl
  rw [cut, checked_ok, Except.ok.injEq] at found
  exact ⟨_, found ▸ prefixed_of_le three (by omega)⟩

lemma sniBody_of_prefixed {trailing} (layout : Prefixed 3 body trailing tail) :
    sniBody (0x01 :: tail) = .ok body := by
  obtain ⟨head, rfl, exact, size⟩ := layout
  have length : (0x01 :: (head ++ (body ++ trailing))).length =
      4 + body.length + trailing.length := by
    rw [length_cons, length_append, length_append]
    omega
  have front : index (0x01 :: (head ++ (body ++ trailing))) 0 = .ok (0x01 : UInt8) := rfl
  have long : failIf ((0x01 :: (head ++ (body ++ trailing))).length < 4)
      "clientHello: payload too short" = .ok () := failIf_eq_ok.mpr (by omega)
  have hello : failIf ((0x01 : UInt8) ≠ 1) "clientHello: not a ClientHello message" = .ok () := rfl
  have lengthField : slice ([0x01] ++ (head ++ (body ++ trailing))) 1 4 = .ok head :=
    slice_append rfl (by rw [exact]; rfl)
  have message : slice (0x01 :: head ++ (body ++ trailing)) 4
      (0x01 :: head ++ (body ++ trailing)).length = .ok (body ++ trailing) :=
    slice_rest (by rw [length_cons, exact]) _
  have fits : failIf ((body ++ trailing).length < body.length) "clientHello: body truncated" =
      .ok () := failIf_eq_ok.mpr (by rw [length_append]; omega)
  have cut : slice ([] ++ (body ++ trailing)) 0 body.length = .ok body := slice_append rfl (by simp)
  simp only [cons_append, nil_append] at lengthField message cut
  simp only [sniBody, long, front, hello, lengthField, message, fits, cut, size, checked_ok,
    ok_bind]

lemma payloadOf_other (other : first ≠ kind) :
    payloadOf kind lo hi short exceeds (first :: tail) = .ok (first :: tail) := by
  have front : index (first :: tail) 0 = .ok first := rfl
  rw [payloadOf, front, checked_ok, ok_bind, if_neg other]
  rfl

variable {h : Bytes}
lemma clientHelloBody_of_raw (raw : h[0]? ≠ some 0x16) (some : h ≠ []) :
    clientHelloBody h = handshakePayload h := by
  cases h with
  | nil => exact absurd rfl some
  | cons first tail =>
    have other : first ≠ 0x16 := by simpa using raw
    have payload : recordPayload (first :: tail) = .ok (first :: tail) := payloadOf_other other
    rw [clientHelloBody, payload]
    rfl

lemma extractSessionID_of_laid {fixed n sessionID} (front back : Bytes)
    (whole : first :: tail = front ++ (fixed ++ n :: (sessionID ++ back)))
    (offset : front.length = if first = 0x01 then 4 else 0) (exact : fixed.length = 34)
    (size : n.toNat = sessionID.length) : extractSessionID (first :: tail) = .ok sessionID := by
  have place : (front ++ fixed).length = (if first = 0x01 then 4 else 0) + (2 + 32) := by
    rw [length_append, offset, exact]
  have length : (first :: tail).length =
      (front ++ fixed).length + 1 + sessionID.length + back.length := by
    rw [whole]
    simp only [length_append, length_cons]
    omega
  have lengthByte : index (first :: tail) ((if first = 0x01 then 4 else 0) + (2 + 32)) = .ok n := by
    rw [whole, ← append_assoc]
    exact index_append place
  have cut : slice (first :: tail) ((if first = 0x01 then 4 else 0) + (2 + 32) + 1)
      ((if first = 0x01 then 4 else 0) + (2 + 32) + 1 + n.toNat) = .ok sessionID := by
    have split : first :: tail = front ++ fixed ++ [n] ++ (sessionID ++ back) := by
      rw [whole]
      simp
    rw [split]
    apply slice_append
    · rw [length_append, place, length_singleton]
    · rw [length_append, place, length_singleton, size]
  have front0 : index (first :: tail) 0 = .ok first := rfl
  have long : failIf ((first :: tail).length < 6) "ClientHello too short" = .ok () :=
    failIf_eq_ok.mpr (by omega)
  have header : failIf (first = 0x01 ∧ (first :: tail).length < 4)
      "ClientHello too short for handshake header" = .ok () := failIf_eq_ok.mpr (by omega)
  have more : failIf ((first :: tail).length ≤ (if first = 0x01 then 4 else 0) + (2 + 32))
      "ClientHello too short for session_id length" = .ok () := failIf_eq_ok.mpr (by omega)
  have fits : failIf ((first :: tail).length <
      (if first = 0x01 then 4 else 0) + (2 + 32) + 1 + n.toNat)
      "ClientHello session_id exceeds data" = .ok () := failIf_eq_ok.mpr (by omega)
  simp only [extractSessionID, long, front0, header, more, lengthByte, fits, cut, checked_ok,
    ok_bind]

lemma extractSessionID_of_blocks (raw : h[0]? ≠ some 0x16)
    (isBody : clientHelloBody h = .ok body) (laid : b.Laid body) :
    extractSessionID h = .ok b.sessionID := by
  obtain ⟨rest, -, ⟨fixed, afterFixed, afterID, -, rfl, exact, first, -, -⟩, -⟩ := laid
  obtain ⟨head, rfl, one, size⟩ := first
  obtain ⟨n, rfl⟩ := length_eq_one_iff.mp one
  have count : n.toNat = b.sessionID.length := by simpa [getBE] using size
  cases h with
  | nil => cases isBody
  | cons byte tail =>
    rw [clientHelloBody_of_raw raw (cons_ne_nil _ _)] at isBody
    by_cases hello : byte = 0x01
    · subst hello
      obtain ⟨trailing, front, whole, three, -⟩ := prefixed_of_handshakePayload isBody
      refine extractSessionID_of_laid (0x01 :: front) (afterID ++ trailing) ?_ ?_ exact count
      · rw [whole]
        simp
      · rw [length_cons, three, if_pos rfl]
    · rw [handshakePayload, payloadOf_other hello] at isBody
      refine extractSessionID_of_laid [] afterID ?_ ?_ exact count
      · exact Except.ok.inj isBody
      · rw [if_neg hello, length_nil]

lemma sniBlocks_of_blocks (hello : h[0]? = some 0x01) (isBody : clientHelloBody h = .ok body)
    (laid : b.Laid body) : sniBlocks h = .ok (some b) := by
  cases h with
  | nil => cases hello
  | cons byte tail =>
    obtain rfl : byte = 0x01 := Option.some.inj hello
    obtain ⟨trailing, layout⟩ := prefixed_of_handshakePayload isBody
    exact sniBlocks_of_laid (sniBody_of_prefixed layout) laid

/-! ### No parser leaves its input -/

lemma safe_extractSessionID (h : Bytes) : Safe (extractSessionID h) := by
  refine guarded fun long => ?_
  refine bind (Safe.index (by omega)) fun first _ => ?_
  refine guarded fun _ => ?_
  refine guarded fun more => ?_
  refine bind (Safe.index (by omega)) fun n _ => ?_
  refine guarded fun fits => ?_
  exact Safe.slice (by omega) (by omega)

lemma safe_payloadOf {data} (order : lo ≤ hi) (some : data.length ≠ 0) :
    Safe (payloadOf kind lo hi short exceeds data) := by
  refine bind (Safe.index (by omega)) fun first _ => ?_
  split_ifs
  · refine guarded fun long => ?_
    refine bind (Safe.slice order (by omega)) fun lengthField _ => ?_
    refine guarded fun fits => ?_
    exact Safe.slice (by omega) (by omega)
  · exact ok _

lemma safe_clientHelloBody (data : Bytes) : Safe (clientHelloBody data) := by
  refine guarded fun some => ?_
  refine bind (safe_payloadOf (by omega) some) fun payload _ => ?_
  exact guarded fun more => safe_payloadOf (by omega) more

lemma safe_walkPreamble (texts : Texts) (body : Bytes) : Safe (walkPreamble texts body) := by
  refine guarded fun long => ?_
  refine bind (Safe.slice (by omega) (Nat.le_refl _)) fun _ _ => ?_
  refine bind (Safe.vector _ _ _ _) fun _ _ => ?_
  refine bind (Safe.vector _ _ _ _) fun _ _ => ?_
  exact bind (Safe.vector _ _ _ _) fun _ _ => ok _

lemma safe_visitKeyShare (extBody : Bytes) : Safe (visitKeyShare extType extBody) := by
  unfold visitKeyShare
  split_ifs
  · exact ok _
  · refine bind (Safe.vector _ _ _ _) fun _ _ => ?_
    refine bind (Safe.records (fun _ _ => ok _) (Nat.le_refl _)) fun found _ => ?_
    cases found with
    | none => exact error _
    | some key => exact ok _

lemma safe_extractX25519FromKeyShare (h : Bytes) : Safe (extractX25519FromKeyShare h) := by
  refine bind ?_ fun blocks _ => ?_
  · refine bind (safe_clientHelloBody h) fun body _ => ?_
    refine bind (safe_walkPreamble _ body) fun _ _ => ?_
    exact bind (Safe.vector _ _ _ _) fun _ _ => ok _
  · refine bind (Safe.records safe_visitKeyShare (Nat.le_refl _)) fun found _ => ?_
    cases found with
    | none => exact error _
    | some key => exact ok _

lemma safe_sniBody (payload : Bytes) : Safe (sniBody payload) := by
  refine guarded fun long => ?_
  refine bind (Safe.index (by omega)) fun first _ => ?_
  refine guarded fun _ => ?_
  refine bind (Safe.slice (by omega) (by omega)) fun lengthField _ => ?_
  refine bind (Safe.slice (by omega) (Nat.le_refl _)) fun body _ => ?_
  exact guarded fun fits => Safe.slice (Nat.zero_le _) (by omega)

lemma safe_visitServerName (extBody : Bytes) : Safe (visitServerName extType extBody) := by
  unfold visitServerName
  split_ifs
  · exact ok _
  · refine bind (Safe.vector _ _ _ _) fun _ _ => ?_
    exact bind (Safe.records (fun _ _ => ok _) (Nat.le_refl _)) fun _ _ => ok _

lemma safe_parseSNIFromClientHello (h : Bytes) : Safe (parseSNIFromClientHello h) := by
  refine bind ?_ fun blocks _ => ?_
  · refine bind (safe_sniBody h) fun body _ => ?_
    refine bind (safe_walkPreamble _ body) fun walked _ => ?_
    dsimp only
    split_ifs
    · exact ok _
    · exact bind (Safe.vector _ _ _ _) fun _ _ => ok _
  · cases blocks with
    | none => exact ok _
    | some blocks => exact bind (Safe.records safe_visitServerName (Nat.le_refl _)) fun _ _ => ok _

/-- Where a key share is found in bytes that are no TLS record, the bytes are laid out in four
blocks; `ExtractSessionID` returns the first of them, and of a handshake message
`parseSNIFromClientHello` walks the same four. No parser leaves its input, whatever it is. -/
theorem clientHello_parsers_agree (h : Bytes) :
    (∀ key, extractX25519FromKeyShare h = .ok key → h[0]? ≠ some 0x16 →
      ∃ body blocks, clientHelloBody h = .ok body ∧ blocks.Laid body ∧
        keyShareBlocks h = .ok blocks ∧ findX25519 blocks.extensions = .ok key ∧
        extractSessionID h = .ok blocks.sessionID ∧
        (h[0]? = some 0x01 → sniBlocks h = .ok (some blocks) ∧
          parseSNIFromClientHello h = findServerName blocks.extensions)) ∧
    Safe (extractSessionID h) ∧ Safe (extractX25519FromKeyShare h) ∧
      Safe (parseSNIFromClientHello h) := by
  refine ⟨?_, safe_extractSessionID h, safe_extractX25519FromKeyShare h,
    safe_parseSNIFromClientHello h⟩
  intro key extracted raw
  obtain ⟨blocks, walked, found⟩ := bind_eq_ok.mp extracted
  obtain ⟨body, isBody, laid⟩ := keyShareBlocks_eq_ok.mp walked
  refine ⟨body, blocks, isBody, laid, walked, found, ?_, ?_⟩
  · exact extractSessionID_of_blocks raw isBody laid
  · intro hello
    have seen := sniBlocks_of_blocks hello isBody laid
    refine ⟨seen, ?_⟩
    rw [parseSNIFromClientHello, seen]
    rfl

def smallHello : Bytes :=
  [1, 0, 0, 100, 3, 3] ++ List.replicate 32 9 ++ [2, 7, 8] ++ [0, 2, 19, 1] ++ [1, 0] ++
    ([0, 55] ++ ([0, 0, 0, 9] ++ ([0, 7, 0, 0, 4] ++ [111, 107, 46, 114])) ++
      ([0, 51, 0, 38] ++ ([0, 36, 0, 29, 0, 32] ++ List.replicate 32 5)))

theorem clientHello_parsers_agree_smallHello :
    extractX25519FromKeyShare smallHello = .ok (List.replicate 32 5) ∧
      ∃ blocks, keyShareBlocks smallHello = .ok blocks ∧
        extractSessionID smallHello = .ok blocks.sessionID ∧
        sniBlocks smallHello = .ok (some blocks) := by
  have extracted : extractX25519FromKeyShare smallHello = .ok (List.replicate 32 5) := by
    decide +kernel
  obtain ⟨-, blocks, -, -, walked, -, session, names⟩ :=
    (clientHello_parsers_agree smallHello).1 _ extracted (by decide)
  exact ⟨extracted, blocks, walked, session, (names rfl).1⟩
end Tamizdat.Server.ClientHello
