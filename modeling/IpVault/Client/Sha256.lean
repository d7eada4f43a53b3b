import IpVault.Crypto
import IpVault.Lib.Js
import IpVault.Lib.Sha256
import Mathlib.Tactic

set_option autoImplicit false

/-! # The signature of the browser (`static/app.js`)

Without Web Crypto, as on a page that is not served over HTTPS, `signRequest` signs with a SHA-256
written in JavaScript. Numbers are whole numbers with the rounding of a double (`Js.Rounding`), the
elements of a `Uint32Array` are words and those of a `Uint8Array` bytes. `none` is a `RangeError`.
-/

namespace IpVault.Client

open Lib Js Sha256

/-! ## Arrays -/

/-- An element of a `Uint32Array`. -/
def get (w : List Word) (i : Nat) : Int := (w.getD i 0).toNat

/-- `w[i] = v`, in a `Uint32Array`. -/
def put (w : List Word) (i : Nat) (v : Int) : List Word := w.set i (word v)

/-- `new Uint8Array(n)`. -/
def newUint8Array (n : Int) : Option (List UInt8) :=
  if 0 ≤ n then some (List.replicate n.toNat 0) else none

/-- `msg.set(bytes, offset)`. -/
def setBytes (msg bytes : List UInt8) (offset : Nat) : Option (List UInt8) :=
  if offset + bytes.length ≤ msg.length then
    some (msg.take offset ++ bytes ++ msg.drop (offset + bytes.length))
  else none

/-- `view.setUint32(position, v, false)`. -/
def setUint32 (msg : List UInt8) (position v : Int) : Option (List UInt8) :=
  if 0 ≤ position then setBytes msg (bigEndian 4 (word v).toNat) position.toNat else none

/-- `view.getUint32(position, false)`, of a position in the message. -/
def getUint32 (msg : List UInt8) (position : Nat) : Int :=
  (number ((msg.drop position).take 4) : Nat)

/-! ## SHA-256 -/

/-- `SHA256_K`. -/
def SHA256_K : List Word :=
  [0x428a2f98, 0x71374491, 0xb5c0fbcf, 0xe9b5dba5, 0x3956c25b, 0x59f111f1, 0x923f82a4, 0xab1c5ed5,
    0xd807aa98, 0x12835b01, 0x243185be, 0x550c7dc3, 0x72be5d74, 0x80deb1fe, 0x9bdc06a7, 0xc19bf174,
    0xe49b69c1, 0xefbe4786, 0x0fc19dc6, 0x240ca1cc, 0x2de92c6f, 0x4a7484aa, 0x5cb0a9dc, 0x76f988da,
    0x983e5152, 0xa831c66d, 0xb00327c8, 0xbf597fc7, 0xc6e00bf3, 0xd5a79147, 0x06ca6351, 0x14292967,
    0x27b70a85, 0x2e1b2138, 0x4d2c6dfc, 0x53380d13, 0x650a7354, 0x766a0abb, 0x81c2c92e, 0x92722c85,
    0xa2bfe8a1, 0xa81a664b, 0xc24b8b70, 0xc76c51a3, 0xd192e819, 0xd6990624, 0xf40e3585, 0x106aa070,
    0x19a4c116, 0x1e376c08, 0x2748774c, 0x34b0bcb5, 0x391c0cb3, 0x4ed8aa4a, 0x5b9cca4f, 0x682e6ff3,
    0x748f82ee, 0x78a5636f, 0x84c87814, 0x8cc70208, 0x90befffa, 0xa4506ceb, 0xbef9a3f7, 0xc67178f2]

/-- `SHA256_BLOCK_BYTES`. -/
def SHA256_BLOCK_BYTES : Nat := 64

/-- `rotr32`. -/
def rotr32 (x : Int) (n : Nat) : Int := or (ushr x n) (shl x (32 - n))

/-- `h`, at the beginning. -/
def initialHash : Vars where
  a := 0x6a09e667
  b := 0xbb67ae85
  c := 0x3c6ef372
  d := 0xa54ff53a
  e := 0x510e527f
  f := 0x9b05688c
  g := 0x1f83d9ab
  h := 0x5be0cd19

/-- The first loop over `w`: the words of the block. -/
def loadWord (msg : List UInt8) (off : Nat) (w : List Word) (i : Nat) : List Word :=
  put w i (getUint32 msg (off + i * 4))

/-- The second loop over `w`. -/
def scheduleWord (R : Rounding) (w : List Word) (i : Nat) : List Word :=
  let s0 := xor (xor (rotr32 (get w (i - 15)) 7) (rotr32 (get w (i - 15)) 18))
    (ushr (get w (i - 15)) 3)
  let s1 := xor (xor (rotr32 (get w (i - 2)) 17) (rotr32 (get w (i - 2)) 19))
    (ushr (get w (i - 2)) 10)
  put w i (ushr (R.add (R.add (R.add (get w (i - 16)) s0) (get w (i - 7))) s1) 0)

/-- The variables of the rounds. -/
structure Registers where
  a : Int
  b : Int
  c : Int
  d : Int
  e : Int
  f : Int
  g : Int
  hh : Int

/-- `let [a, b, c, d, e, f, g, hh] = h`. -/
def Registers.of (h : Vars) : Registers where
  a := h.a.toNat
  b := h.b.toNat
  c := h.c.toNat
  d := h.d.toNat
  e := h.e.toNat
  f := h.f.toNat
  g := h.g.toNat
  hh := h.h.toNat

/-- The loop of the rounds. -/
def roundStep (R : Rounding) (w : List Word) (r : Registers) (i : Nat) : Registers :=
  let S1 := xor (xor (rotr32 r.e 6) (rotr32 r.e 11)) (rotr32 r.e 25)
  let ch := xor (and r.e r.f) (and (not r.e) r.g)
  let t1 := ushr (R.add (R.add (R.add (R.add r.hh S1) ch) (get SHA256_K i)) (get w i)) 0
  let S0 := xor (xor (rotr32 r.a 2) (rotr32 r.a 13)) (rotr32 r.a 22)
  let maj := xor (xor (and r.a r.b) (and r.a r.c)) (and r.b r.c)
  let t2 := ushr (R.add S0 maj) 0
  { a := ushr (R.add t1 t2) 0
    b := r.a
    c := r.b
    d := r.c
    e := ushr (R.add r.d t1) 0
    f := r.e
    g := r.f
    hh := r.g }

/-- `h[i] = (h[i] + a) >>> 0`. -/
def addTo (R : Rounding) (h : Word) (a : Int) : Word := word (ushr (R.add h.toNat a) 0)

/-- The loop over the blocks, with `h` and `w` as the block before has left them. -/
def hashBlock (R : Rounding) (msg : List UInt8) (state : Vars × List Word) (off : Nat) :
    Vars × List Word :=
  let h := state.1
  let loaded := (List.range' 0 16).foldl (loadWord msg off) state.2
  let w := (List.range' 16 48).foldl (scheduleWord R) loaded
  let r := (List.range 64).foldl (roundStep R w) (.of h)
  ({ a := addTo R h.a r.a
     b := addTo R h.b r.b
     c := addTo R h.c r.c
     d := addTo R h.d r.d
     e := addTo R h.e r.e
     f := addTo R h.f r.f
     g := addTo R h.g r.g
     h := addTo R h.h r.hh }, w)

/-- The values of `off`, from 0 in steps of a block. -/
def offsets (totalLen : Nat) : List Nat :=
  (List.range ((totalLen + 63) / SHA256_BLOCK_BYTES)).map (· * SHA256_BLOCK_BYTES)

/-- The message with its padding: `msg`, as the blocks are read from it. A quotient by `2 ^ 32` is
exact before `Math.floor`. -/
def paddedMessage (R : Rounding) (bytes : List UInt8) : Option (List UInt8) := do
  let bitLen := R.mul bytes.length 8
  let totalLen := shl (shr (R.add (R.add bytes.length 9) 63) 6) 6
  let zeros ← newUint8Array totalLen
  let copied ← setBytes zeros bytes 0
  let marked := copied.set bytes.length 0x80
  let high ← setUint32 marked (totalLen - 8) (bitLen / 0x100000000)
  setUint32 high (totalLen - 4) (ushr bitLen 0)

/-- `sha256Bytes`. -/
def sha256Bytes (R : Rounding) (bytes : List UInt8) : Option (List UInt8) := do
  let msg ← paddedMessage R bytes
  let state := (offsets msg.length).foldl (hashBlock R msg) (initialHash, List.replicate 64 0)
  some state.1.bytes

/-! ## HMAC -/

/-- `hmacSha256Bytes`. -/
def hmacSha256Bytes (R : Rounding) (keyBytes msgBytes : List UInt8) : Option (List UInt8) := do
  let hashed :=
    if SHA256_BLOCK_BYTES < keyBytes.length then sha256Bytes R keyBytes else some keyBytes
  let key ← hashed
  let padded ← setBytes (List.replicate SHA256_BLOCK_BYTES 0) key 0
  let inner ← setBytes (padded.map (· ^^^ 0x36) ++ List.replicate msgBytes.length 0) msgBytes
    SHA256_BLOCK_BYTES
  let digest ← sha256Bytes R inner
  let outer ← setBytes (padded.map (· ^^^ 0x5c) ++ List.replicate 32 0) digest SHA256_BLOCK_BYTES
  sha256Bytes R outer

/-- `String.prototype.padStart`. -/
def padStart (n : Nat) (c : Char) (s : List Char) : List Char :=
  List.replicate (n - s.length) c ++ s

/-- `bytesToHex`. -/
def bytesToHex (bytes : List UInt8) : String :=
  String.ofList (bytes.flatMap fun b => padStart 2 '0' (Nat.toDigits 16 b.toNat))

/-- `signRequest`, where there is no Web Crypto. -/
def signRequest (R : Rounding) (signingSecret method path timestamp body : String) :
    Option String :=
  let message := Crypto.as_bytes
    (method ++ "\n" ++ path ++ "\n" ++ timestamp ++ "\n" ++ body)
  (hmacSha256Bytes R (Crypto.as_bytes signingSecret) message).map fun digest =>
    "sha256=" ++ bytesToHex digest

end IpVault.Client
