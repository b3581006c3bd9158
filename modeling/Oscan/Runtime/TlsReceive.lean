import Oscan.Library.Interleaving
import Oscan.Runtime.Map

/-! The receiving side of a TLS connection on Windows: ciphertext is gathered in one buffer, a record of it is
decrypted in place, and its plaintext waits in another buffer for the program. -/
namespace Oscan.Runtime.TlsReceive
open Library.Interleaving

/-- `sizeof(c->decrypted)` and `sizeof(c->raw_buf)` -/
def bufSize : Nat := 65536

/-- What `DecryptMessage` reports: the place of the plaintext, the plaintext, and the bytes behind the record -/
inductive Decrypted where
  | incomplete
  | failed
  | expired
  | data (place : Nat) (plain extra : Str)

/-- What a record is to the receiver -/
inductive Kind where
  | data (place : Nat) (plain : Str)
  | expired
  | failing

/-- A record of the stream, no longer than the protocol lets it be, with its plaintext inside -/
structure Record where
  bytes : Str
  kind : Kind
  some : bytes ≠ []
  short : bytes.length ≤ 18437
  inside : match kind with
    | .data place plain => place + plain.length ≤ bytes.length
    | .expired | .failing => True

def Record.answer (r : Record) (extra : Str) : Decrypted :=
  match r.kind with
  | .data place plain => .data place plain extra
  | .expired => .expired
  | .failing => .failed

/-- `DecryptMessage` of a context that has decrypted some records answers for the next, when the buffer has all of
it, and leaves a buffer that ends within it alone. -/
structure Decrypts (records : List Record) (decryptMessage : Nat → Str → Decrypted) : Prop where
  whole : ∀ i r extra, records[i]? = some r → decryptMessage i (r.bytes ++ extra) = r.answer extra
  part : ∀ i r buf, records[i]? = some r → buf ≠ [] → buf <+: r.bytes → buf ≠ r.bytes →
    decryptMessage i buf = .incomplete

/-- The fields of an `osc_tls_conn`, where the context is how many records it has decrypted -/
structure Conn where
  ctx : Nat
  closed : Bool
  decrypted : Str
  decPos : Nat
  raw : Str

inductive Phase where
  | idle
  | receiving (maxLen attempts : Nat)
  | returned (out : Str) (ended : Bool)

/-- The connection, the ciphertext that is still to come, where the receiving call stands, and what the program was
given so far -/
structure State where
  conn : Conn
  coming : Str
  phase : Phase
  delivered : Str

section Code
variable (decryptMessage : Nat → Str → Decrypted)

/-- `osc_tls_decrypt_data` -/
def decryptData (c : Conn) : Int × Conn :=
  if c.raw = [] then (0,c)
  else
    match decryptMessage c.ctx c.raw with
    | .incomplete => (0,c)
    | .failed => (-1,c)
    | .expired => (1,{ c with closed := true,raw := [] })
    | .data place plain extra =>
      let extraAt := c.raw.length - extra.length
      let copy := if extra ≠ [] ∧ place < extraAt ∧ extraAt < place + plain.length then extraAt - place
        else plain.length
      let space := bufSize - c.decrypted.length
      let copy := if space < copy then space else copy
      (1,{ c with ctx := c.ctx + 1,decrypted := c.decrypted ++ plain.take copy,raw := extra })

/-- Plaintext that waits goes to the program, as much as it asked for. -/
def takeOut (c : Conn) (maxLen : Nat) : Str × Conn :=
  let avail := c.decrypted.length - c.decPos
  let copy := if avail < maxLen then avail else maxLen
  ((c.decrypted.drop c.decPos).take copy,
    if c.decrypted.length ≤ c.decPos + copy then { c with decPos := 0,decrypted := [] }
    else { c with decPos := c.decPos + copy })

def answer (s : State) (ended : Bool) (result : Str × Conn) : State :=
  { s with conn := result.2,phase := .returned result.1 ended,delivered := s.delivered ++ result.1 }

/-- The head of the loop, up to the call of `recv` -/
def goOn (s : State) (c : Conn) (maxLen attempts : Nat) : State :=
  if attempts < 100 then
    if bufSize - c.raw.length = 0 then answer s false ([],c)
    else { s with conn := c,phase := .receiving maxLen attempts }
  else answer s false ([],c)

/-- What follows the decryption: the plaintext, an empty answer, or the loop -/
def settle (s : State) (decrypted : Int × Conn) (maxLen attempts : Nat) : State :=
  let (n,c) := decrypted
  if 0 < n ∧ 0 < c.decrypted.length then answer s false (takeOut c maxLen)
  else if n < 0 ∨ c.closed = true then answer s false ([],c)
  else goOn s c maxLen attempts

/-- `osc_tls_recv` of an open connection, up to the first call of `recv` -/
def receive (s : State) (maxLen : Int) : State :=
  let maxLen := if maxLen ≤ 0 ∨ 65536 < maxLen then 4096 else maxLen.toNat
  let c := s.conn
  if c.decPos < c.decrypted.length then answer s false (takeOut c maxLen)
  else
    let c := { c with decPos := 0,decrypted := [] }
    if c.closed then answer s false ([],c)
    else settle s (decryptData decryptMessage c) maxLen 0

/-- A call of the program, or the answer of `recv`: a count of bytes, or that the connection ended or failed -/
inductive Action where
  | call (maxLen : Int)
  | network (received : Option Nat)

def step (s : State) : Action → Option State
  | .call maxLen =>
    match s.phase with
    | .receiving _ _ => none
    | .idle | .returned _ _ => some (receive decryptMessage s maxLen)
  | .network received =>
    match s.phase with
    | .receiving maxLen attempts =>
      match received with
      | none => some (answer s true ([],s.conn))
      | some r =>
        if 0 < r ∧ r ≤ bufSize - s.conn.raw.length ∧ r ≤ s.coming.length then
          let c := { s.conn with raw := s.conn.raw ++ s.coming.take r }
          some (settle { s with coming := s.coming.drop r } (decryptData decryptMessage c) maxLen (attempts + 1))
        else none
    | .idle | .returned _ _ => none

/-- A complete record with data is first in the buffer. -/
def Waits (c : Conn) : Prop := c.raw ≠ [] ∧ ∃ place plain extra, decryptMessage c.ctx c.raw = .data place plain extra

/-- The record that is first in the buffer ends the call: it has plaintext, or closes, or fails. -/
def Ends (ctx : Nat) (raw : Str) : Prop :=
  match decryptMessage ctx raw with
  | .incomplete => False
  | .failed | .expired => True
  | .data _ plain _ => plain ≠ []

/-- The network does not end while a complete record waits, and the hundredth chunk of a call ends the call. -/
def Serves (s : State) : Action → Prop
  | .call _ => True
  | .network none => ¬Waits decryptMessage s.conn
  | .network (some r) =>
    match s.phase with
    | .receiving _ attempts =>
      attempts + 1 < 100 ∨ Ends decryptMessage s.conn.ctx (s.conn.raw ++ s.coming.take r)
    | .idle | .returned _ _ => True

end Code

/-- The plaintext of the records before the first that closes or fails -/
def plaintext : List Record → Str
  | [] => []
  | r :: rs =>
    match r.kind with
    | .data _ plain => plain ++ plaintext rs
    | .expired | .failing => []

/-- What is asked of a state: the answers so far are the beginning of the plaintext, the indices stay within their
buffers, and an empty answer means that the connection was closed, ended or failed and no record is left. -/
structure Sound (records : List Record) (decryptMessage : Nat → Str → Decrypted) (s : State) : Prop where
  inOrder : s.delivered <+: plaintext records
  position : s.conn.decPos ≤ s.conn.decrypted.length ∧ s.conn.decrypted.length ≤ bufSize
  gathered : s.conn.raw.length ≤ bufSize
  emptied : ∀ ended, s.phase = .returned [] ended →
    (s.conn.closed = true ∨ ended = true ∨ decryptMessage s.conn.ctx s.conn.raw = .failed) ∧
      ¬Waits decryptMessage s.conn

/-- After the handshake, with some of the ciphertext in the buffer already -/
def opened (leftOver coming : Str) : State := ⟨⟨0,false,[],0,leftOver⟩,coming,.idle,[]⟩

end Oscan.Runtime.TlsReceive
