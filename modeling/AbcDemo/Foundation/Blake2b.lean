import AbcDemo.Foundation.Codec

/-! # Unkeyed BLAKE2b

The hash function with a chosen digest length: little-endian blocks of sixteen
64-bit words, twelve rounds of mixing, and the byte counter and the last-block
flag folded into the working vector.
-/

namespace AbcDemo.Foundation.Blake2b

/-- Initialisation vector. -/
def iv : List UInt64 :=
  [0x6a09e667f3bcc908, 0xbb67ae8584caa73b, 0x3c6ef372fe94f82b, 0xa54ff53a5f1d36f1,
    0x510e527fade682d1, 0x9b05688c2b3e6c1f, 0x1f83d9abfb41bd6b, 0x5be0cd19137e2179]

/-- Message schedule of the ten distinct rounds; the last two repeat the first two. -/
def sigma : List (List Nat) :=
  [[0, 1, 2, 3, 4, 5, 6, 7, 8, 9, 10, 11, 12, 13, 14, 15],
    [14, 10, 4, 8, 9, 15, 13, 6, 1, 12, 0, 2, 11, 7, 5, 3],
    [11, 8, 12, 0, 5, 2, 15, 13, 10, 14, 3, 6, 7, 1, 9, 4],
    [7, 9, 3, 1, 13, 12, 11, 14, 2, 6, 5, 10, 4, 0, 15, 8],
    [9, 0, 5, 7, 2, 4, 10, 15, 14, 1, 11, 12, 6, 8, 3, 13],
    [2, 12, 6, 10, 0, 11, 8, 3, 4, 13, 7, 5, 15, 14, 1, 9],
    [12, 5, 1, 15, 14, 13, 4, 10, 0, 7, 6, 3, 9, 2, 8, 11],
    [13, 11, 7, 14, 12, 1, 3, 9, 5, 0, 15, 4, 8, 6, 2, 10],
    [6, 15, 14, 9, 11, 3, 0, 8, 12, 2, 13, 7, 1, 4, 10, 5],
    [10, 2, 8, 4, 7, 6, 1, 5, 15, 11, 9, 14, 3, 12, 13, 0]]

def rotateRight (x : UInt64) (n : UInt64) : UInt64 := (x >>> n) ||| (x <<< (64 - n))

/-- The mixing function on the working-vector positions `a`, `b`, `c`, `d`. -/
def mix (v : List UInt64) (a b c d : Nat) (x y : UInt64) : List UInt64 :=
  let va := v.getD a 0 + v.getD b 0 + x
  let vd := rotateRight (v.getD d 0 ^^^ va) 32
  let vc := v.getD c 0 + vd
  let vb := rotateRight (v.getD b 0 ^^^ vc) 24
  let va := va + vb + y
  let vd := rotateRight (vd ^^^ va) 16
  let vc := vc + vd
  let vb := rotateRight (vb ^^^ vc) 63
  (((v.set a va).set b vb).set c vc).set d vd

def round (m : List UInt64) (v : List UInt64) (r : Nat) : List UInt64 :=
  let word (i : Nat) : UInt64 := m.getD ((sigma.getD (r % 10) []).getD i 0) 0
  let v := mix v 0 4 8 12 (word 0) (word 1)
  let v := mix v 1 5 9 13 (word 2) (word 3)
  let v := mix v 2 6 10 14 (word 4) (word 5)
  let v := mix v 3 7 11 15 (word 6) (word 7)
  let v := mix v 0 5 10 15 (word 8) (word 9)
  let v := mix v 1 6 11 12 (word 10) (word 11)
  let v := mix v 2 7 8 13 (word 12) (word 13)
  mix v 3 4 9 14 (word 14) (word 15)

def wordOfBytes (bytes : Bytes) : UInt64 :=
  bytes.foldr (fun b acc => acc <<< 8 ||| b.toUInt64) 0

def bytesOfWord (w : UInt64) : Bytes :=
  (List.range 8).map fun i => (w >>> (8 * i).toUInt64).toUInt8

def blockWords (block : Bytes) : List UInt64 :=
  (List.range 16).map fun i => wordOfBytes ((block.drop (8 * i)).take 8)

/-- Compression of one block; `count` is the number of message bytes so far. -/
def compress (h : List UInt64) (block : Bytes) (count : Nat) (last : Bool) : List UInt64 :=
  let m := blockWords block
  let v := h ++ iv
  let v := v.set 12 (v.getD 12 0 ^^^ count.toUInt64)
  let v := v.set 13 (v.getD 13 0 ^^^ (count >>> 64).toUInt64)
  let v := if last then v.set 14 (~~~ v.getD 14 0) else v
  let v := (List.range 12).foldl (round m) v
  (List.range 8).map fun i => h.getD i 0 ^^^ v.getD i 0 ^^^ v.getD (i + 8) 0

/-- The last block is the one that leaves nothing; the empty message has one. -/
def absorb (h : List UInt64) (count : Nat) : Nat → Bytes → List UInt64
  | 0, _ => h
  | fuel + 1, message =>
      let block := message.take 128
      let rest := message.drop 128
      let count := count + block.length
      if rest.isEmpty then compress h (block ++ List.replicate (128 - block.length) 0) count true
      else absorb (compress h block count false) count fuel rest

/-- Every block consumes 128 bytes, so the message length bounds the blocks. -/
def digestWords (size : Nat) (message : Bytes) : List UInt64 :=
  let h := iv.set 0 (iv.getD 0 0 ^^^ (0x01010000 ^^^ size.toUInt64))
  absorb h 0 (message.length / 128 + 1) message

def hash (size : Nat) (message : Bytes) : FixedBytes size :=
  let digest := ((digestWords size message).flatMap bytesOfWord).take size
  ⟨digest ++ List.replicate (size - digest.length) 0, by
    have h : digest.length ≤ size := List.length_take_le _ _
    rw [List.length_append, List.length_replicate]
    omega⟩

end AbcDemo.Foundation.Blake2b
