import Oscan.Runtime.Map

/-! The hash function of the runtime where it does not call a library for it. -/
namespace Oscan.Runtime.Sha256

def sha256K : List (BitVec 32) :=
  [0x428a2f98,0x71374491,0xb5c0fbcf,0xe9b5dba5,0x3956c25b,0x59f111f1,0x923f82a4,0xab1c5ed5,
   0xd807aa98,0x12835b01,0x243185be,0x550c7dc3,0x72be5d74,0x80deb1fe,0x9bdc06a7,0xc19bf174,
   0xe49b69c1,0xefbe4786,0x0fc19dc6,0x240ca1cc,0x2de92c6f,0x4a7484aa,0x5cb0a9dc,0x76f988da,
   0x983e5152,0xa831c66d,0xb00327c8,0xbf597fc7,0xc6e00bf3,0xd5a79147,0x06ca6351,0x14292967,
   0x27b70a85,0x2e1b2138,0x4d2c6dfc,0x53380d13,0x650a7354,0x766a0abb,0x81c2c92e,0x92722c85,
   0xa2bfe8a1,0xa81a664b,0xc24b8b70,0xc76c51a3,0xd192e819,0xd6990624,0xf40e3585,0x106aa070,
   0x19a4c116,0x1e376c08,0x2748774c,0x34b0bcb5,0x391c0cb3,0x4ed8aa4a,0x5b9cca4f,0x682e6ff3,
   0x748f82ee,0x78a5636f,0x84c87814,0x8cc70208,0x90befffa,0xa4506ceb,0xbef9a3f7,0xc67178f2]

/-- The variables of the hash, or of a round -/
structure Variables where
  a : BitVec 32
  b : BitVec 32
  c : BitVec 32
  d : BitVec 32
  e : BitVec 32
  f : BitVec 32
  g : BitVec 32
  hh : BitVec 32

def start : Variables :=
  ⟨0x6a09e667,0xbb67ae85,0x3c6ef372,0xa54ff53a,0x510e527f,0x9b05688c,0x1f83d9ab,0x5be0cd19⟩

def paddedLen (msgLen : Nat) : Nat := ((msgLen + 8) / 64 + 1) * 64

/-- The buffer with the padded message, over what the memory was before -/
def padded (memory : Nat → UInt8) (data : Str) : Str :=
  let msgLen := data.length
  let totalBits := data.length * 8 % 2^64
  let fresh := (List.range (paddedLen msgLen)).map memory
  let message := (List.range msgLen).foldl (fun p ci => p.set ci (data.getD ci 0)) fresh
  let marked := message.set msgLen 0x80
  let cleared := (List.range' (msgLen + 1) (paddedLen msgLen - 8 - (msgLen + 1))).foldl (fun p ci => p.set ci 0) marked
  (List.range 8).foldl (fun p i => p.set (paddedLen msgLen - 1 - i) (UInt8.ofNat (totalBits >>> (i * 8)))) cleared

def byteWord (p : Str) (i : Nat) : BitVec 32 := (p.getD i 0).toBitVec.setWidth 32

def loadWord (p : Str) (i : Nat) : BitVec 32 :=
  (byteWord p i <<< 24) ||| (byteWord p (i + 1) <<< 16) ||| (byteWord p (i + 2) <<< 8) ||| byteWord p (i + 3)

/-- A round of the loop that makes the words from the 16th on -/
def extendWords (w : List (BitVec 32)) (j : Nat) : List (BitVec 32) :=
  let at15 := w.getD (j - 15) 0
  let at2 := w.getD (j - 2) 0
  let s0 := ((at15 >>> 7) ||| (at15 <<< 25)) ^^^ ((at15 >>> 18) ||| (at15 <<< 14)) ^^^ (at15 >>> 3)
  let s1 := ((at2 >>> 17) ||| (at2 <<< 15)) ^^^ ((at2 >>> 19) ||| (at2 <<< 13)) ^^^ (at2 >>> 10)
  w ++ [w.getD (j - 16) 0 + s0 + w.getD (j - 7) 0 + s1]

def messageWords (p : Str) (ci : Nat) : List (BitVec 32) :=
  (List.range' 16 48).foldl extendWords ((List.range 16).map fun j => loadWord p (ci + j * 4))

def round (w : List (BitVec 32)) (v : Variables) (j : Nat) : Variables :=
  let s1 := ((v.e >>> 6) ||| (v.e <<< 26)) ^^^ ((v.e >>> 11) ||| (v.e <<< 21)) ^^^ ((v.e >>> 25) ||| (v.e <<< 7))
  let ch := (v.e &&& v.f) ^^^ (~~~v.e &&& v.g)
  let t1 := v.hh + s1 + ch + sha256K.getD j 0 + w.getD j 0
  let s0 := ((v.a >>> 2) ||| (v.a <<< 30)) ^^^ ((v.a >>> 13) ||| (v.a <<< 19)) ^^^ ((v.a >>> 22) ||| (v.a <<< 10))
  let maj := (v.a &&& v.b) ^^^ (v.a &&& v.c) ^^^ (v.b &&& v.c)
  let t2 := s0 + maj
  ⟨t1 + t2,v.a,v.b,v.c,v.d + t1,v.e,v.f,v.g⟩

/-- A chunk of 64 bytes -/
def chunk (p : Str) (h : Variables) (ci : Nat) : Variables :=
  let v := (List.range 64).foldl (round (messageWords p ci)) h
  ⟨h.a + v.a,h.b + v.b,h.c + v.c,h.d + v.d,h.e + v.e,h.f + v.f,h.g + v.g,h.hh + v.hh⟩

def hashBytes (h : BitVec 32) : List UInt8 :=
  [.ofNat (h >>> 24).toNat,.ofNat (h >>> 16).toNat,.ofNat (h >>> 8).toNat,.ofNat h.toNat]

/-- The text of `0123456789abcdef` -/
def hexchars : Str := [48,49,50,51,52,53,54,55,56,57,97,98,99,100,101,102]

def hexByte (b : UInt8) : Str := [hexchars.getD ((b >>> 4) &&& 0x0f).toNat 0,hexchars.getD (b &&& 0x0f).toNat 0]

def sha256 (memory : Nat → UInt8) (data : Str) : Str :=
  let p := padded memory data
  let h := (List.range (paddedLen data.length / 64)).foldl (fun h n => chunk p h (n * 64)) start
  let hash := [h.a,h.b,h.c,h.d,h.e,h.f,h.g,h.hh].flatMap hashBytes
  hash.flatMap hexByte

end Oscan.Runtime.Sha256
