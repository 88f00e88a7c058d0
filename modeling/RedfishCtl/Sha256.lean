import Mathlib.Algebra.Ring.Nat
import Mathlib.Data.List.Basic

/-! SHA-256 over byte lists, following FIPS 180-4: padding to 64-byte blocks, the
64-word message schedule and the 64 rounds of the compression function. -/
namespace RedfishCtl.Sha256

def roundConstants : List UInt32 :=
  [0x428a2f98,0x71374491,0xb5c0fbcf,0xe9b5dba5,0x3956c25b,0x59f111f1,0x923f82a4,0xab1c5ed5,
   0xd807aa98,0x12835b01,0x243185be,0x550c7dc3,0x72be5d74,0x80deb1fe,0x9bdc06a7,0xc19bf174,
   0xe49b69c1,0xefbe4786,0x0fc19dc6,0x240ca1cc,0x2de92c6f,0x4a7484aa,0x5cb0a9dc,0x76f988da,
   0x983e5152,0xa831c66d,0xb00327c8,0xbf597fc7,0xc6e00bf3,0xd5a79147,0x06ca6351,0x14292967,
   0x27b70a85,0x2e1b2138,0x4d2c6dfc,0x53380d13,0x650a7354,0x766a0abb,0x81c2c92e,0x92722c85,
   0xa2bfe8a1,0xa81a664b,0xc24b8b70,0xc76c51a3,0xd192e819,0xd6990624,0xf40e3585,0x106aa070,
   0x19a4c116,0x1e376c08,0x2748774c,0x34b0bcb5,0x391c0cb3,0x4ed8aa4a,0x5b9cca4f,0x682e6ff3,
   0x748f82ee,0x78a5636f,0x84c87814,0x8cc70208,0x90befffa,0xa4506ceb,0xbef9a3f7,0xc67178f2]

structure Chain where
  a : UInt32
  b : UInt32
  c : UInt32
  d : UInt32
  e : UInt32
  f : UInt32
  g : UInt32
  h : UInt32
  deriving DecidableEq, Repr

def initial : Chain :=
  ⟨0x6a09e667,0xbb67ae85,0x3c6ef372,0xa54ff53a,0x510e527f,0x9b05688c,0x1f83d9ab,0x5be0cd19⟩

def rotr (n x : UInt32) : UInt32 := (x >>> n) ||| (x <<< (32 - n))

def byteAt (n i : Nat) : UInt8 := UInt8.ofNat (n / 256^i % 256)

def pad (message : List UInt8) : List UInt8 :=
  message ++ [0x80] ++ List.replicate ((119 - message.length % 64) % 64) 0 ++
    (List.range 8).reverse.map (byteAt (8 * message.length))

def words : List UInt8 → List UInt32
  | a::b::c::d::rest => ((a.toUInt32 <<< 24) ||| (b.toUInt32 <<< 16) ||| (c.toUInt32 <<< 8) |||
      d.toUInt32) :: words rest
  | _ => []

/- The schedule is kept newest word first, so the recurrence reads fixed offsets. -/
def extend : Nat → List UInt32 → List UInt32
  | 0, recent => recent
  | n+1, recent =>
      let w15 := recent.getD 14 0
      let w2 := recent.getD 1 0
      let s0 := rotr 7 w15 ^^^ rotr 18 w15 ^^^ (w15 >>> 3)
      let s1 := rotr 17 w2 ^^^ rotr 19 w2 ^^^ (w2 >>> 10)
      extend n ((recent.getD 15 0 + s0 + recent.getD 6 0 + s1) :: recent)

def schedule (block : List UInt8) : List UInt32 := (extend 48 (words block).reverse).reverse

def round (s : Chain) (kw : UInt32 × UInt32) : Chain :=
  let s1 := rotr 6 s.e ^^^ rotr 11 s.e ^^^ rotr 25 s.e
  let ch := (s.e &&& s.f) ^^^ ((~~~s.e) &&& s.g)
  let t1 := s.h + s1 + ch + kw.1 + kw.2
  let s0 := rotr 2 s.a ^^^ rotr 13 s.a ^^^ rotr 22 s.a
  let maj := (s.a &&& s.b) ^^^ (s.a &&& s.c) ^^^ (s.b &&& s.c)
  ⟨t1 + (s0 + maj),s.a,s.b,s.c,s.d + t1,s.e,s.f,s.g⟩

def compress (s : Chain) (block : List UInt8) : Chain :=
  let r := (roundConstants.zip (schedule block)).foldl round s
  ⟨s.a+r.a,s.b+r.b,s.c+r.c,s.d+r.d,s.e+r.e,s.f+r.f,s.g+r.g,s.h+r.h⟩

def blocks : Nat → List UInt8 → List (List UInt8)
  | 0, _ => []
  | n+1, bytes => bytes.take 64 :: blocks n (bytes.drop 64)

def digest (message : List UInt8) : Chain :=
  let padded := pad message
  (blocks (padded.length / 64) padded).foldl compress initial

def hexDigit (n : Nat) : Char := if n < 10 then Char.ofNat (48 + n) else Char.ofNat (87 + n)

def hexWord (w : UInt32) : List Char :=
  (List.range 8).reverse.map fun i => hexDigit (w.toNat / 16^i % 16)

def hexdigest (message : List UInt8) : String :=
  let s := digest message
  String.ofList (hexWord s.a ++ hexWord s.b ++ hexWord s.c ++ hexWord s.d ++
    hexWord s.e ++ hexWord s.f ++ hexWord s.g ++ hexWord s.h)

theorem hexdigestLength (message : List UInt8) : (hexdigest message).length = 64 := by
  simp [hexdigest,hexWord]

theorem hexdigestNonempty (message : List UInt8) : hexdigest message ≠ "" := by
  intro empty
  have length := hexdigestLength message
  simp [empty] at length

end RedfishCtl.Sha256
