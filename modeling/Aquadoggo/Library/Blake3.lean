import Mathlib.Data.List.Defs

/-! The BLAKE3 hash in its hashing mode, with the default 32-byte output: chunks of 1024 bytes
compressed block by block, their chaining values merged into a binary tree whose left subtrees
are full, and the root compressed with the `ROOT` flag. The tree is built with the stack of the
reference implementation, so that every definition is structural. -/
namespace Library

namespace Blake3

def iv : List UInt32 :=
  [0x6A09E667, 0xBB67AE85, 0x3C6EF372, 0xA54FF53A, 0x510E527F, 0x9B05688C, 0x1F83D9AB, 0x5BE0CD19]

def msgPermutation : List Nat := [2, 6, 3, 10, 7, 0, 4, 13, 1, 11, 12, 5, 9, 14, 15, 8]

def chunkStart : UInt32 := 1
def chunkEnd : UInt32 := 2
def parent : UInt32 := 4
def root : UInt32 := 8

def rotr (x n : UInt32) : UInt32 := (x >>> n) ||| (x <<< (32 - n))

/-- The mixing function `G` on the state words `a`, `b`, `c`, `d` with two message words. -/
def g (s : List UInt32) (a b c d : Nat) (mx my : UInt32) : List UInt32 :=
  let sa := s.getD a 0 + s.getD b 0 + mx
  let sd := rotr (s.getD d 0 ^^^ sa) 16
  let sc := s.getD c 0 + sd
  let sb := rotr (s.getD b 0 ^^^ sc) 12
  let sa := sa + sb + my
  let sd := rotr (sd ^^^ sa) 8
  let sc := sc + sd
  let sb := rotr (sb ^^^ sc) 7
  (((s.set a sa).set b sb).set c sc).set d sd

/-- The columns, then the diagonals: the state words each `G` of a round mixes, and the
indices of its two message words. -/
def schedule : List (Nat × Nat × Nat × Nat × Nat × Nat) :=
  [(0, 4, 8, 12, 0, 1), (1, 5, 9, 13, 2, 3), (2, 6, 10, 14, 4, 5), (3, 7, 11, 15, 6, 7),
    (0, 5, 10, 15, 8, 9), (1, 6, 11, 12, 10, 11), (2, 7, 8, 13, 12, 13), (3, 4, 9, 14, 14, 15)]

def round (m s : List UInt32) : List UInt32 :=
  schedule.foldl (fun s (a, b, c, d, i, j) => g s a b c d (m.getD i 0) (m.getD j 0)) s

def permute (m : List UInt32) : List UInt32 := msgPermutation.map (m.getD · 0)

def rounds : Nat → List UInt32 → List UInt32 → List UInt32
  | 0, _, s => s
  | n + 1, m, s => rounds n (permute m) (round m s)

/-- The compression function: seven rounds over the chaining value, the first half of the IV,
the 64-bit counter, the block length and the flags. -/
def compress (cv block : List UInt32) (counter blockLen : Nat) (flags : UInt32) : List UInt32 :=
  let s := rounds 7 block (cv ++ iv.take 4 ++
    [UInt32.ofNat counter, UInt32.ofNat (counter >>> 32), UInt32.ofNat blockLen, flags])
  List.zipWith (· ^^^ ·) (s.take 8) (s.drop 8) ++ List.zipWith (· ^^^ ·) (s.drop 8) cv

/-- The little-endian word of the first four bytes, missing bytes read as zero. -/
def word (bytes : List UInt8) : UInt32 :=
  (bytes.getD 0 0).toUInt32 ||| ((bytes.getD 1 0).toUInt32 <<< 8) |||
    ((bytes.getD 2 0).toUInt32 <<< 16) ||| ((bytes.getD 3 0).toUInt32 <<< 24)

/-- A block as sixteen words, padded with zeros. -/
def blockWords (block : List UInt8) : List UInt32 :=
  (List.range 16).map fun i => word (block.drop (4 * i))

def wordBytes (w : UInt32) : List UInt8 :=
  [w.toUInt8, (w >>> 8).toUInt8, (w >>> 16).toUInt8, (w >>> 24).toUInt8]

/-- A compression not made yet: that of a chunk's last block or of a parent node, which becomes
a chaining value, or the root. -/
structure Output where
  cv : List UInt32
  block : List UInt32
  counter : Nat
  blockLen : Nat
  flags : UInt32

def Output.chainingValue (output : Output) : List UInt32 :=
  (compress output.cv output.block output.counter output.blockLen output.flags).take 8

/-- The 32 bytes of the root: its first output block, whose counter is `0`. -/
def Output.rootBytes (output : Output) : List UInt8 :=
  ((compress output.cv output.block 0 output.blockLen (output.flags ||| root)).take 8).flatMap
    wordBytes

/-- Empty input is one empty chunk of one empty block. -/
def nonEmpty (pieces : List (List UInt8)) : List (List UInt8) :=
  if pieces = [] then [[]] else pieces

def chunkOutput (counter : Nat) (chunk : List UInt8) : Output :=
  let blocks := nonEmpty (chunk.toChunks 64)
  let cv := (blocks.dropLast.foldl (fun (cv, flags) block =>
      ((compress cv (blockWords block) counter 64 flags).take 8, 0)) (iv, chunkStart)).1
  let last := blocks.getLastD []
  ⟨cv, blockWords last, counter, last.length,
    (if blocks.length = 1 then chunkStart else 0) ||| chunkEnd⟩

def parentOutput (left right : List UInt32) : Output := ⟨iv, left ++ right, 0, 64, parent⟩

/-- Push the chaining value of a finished chunk, merging the completed subtrees on top of the
stack: one for each trailing zero bit of the number of chunks so far. -/
def pushChunk : List (List UInt32) → List UInt32 → Nat → List (List UInt32)
  | [], cv, _ => [cv]
  | top :: rest, cv, total =>
    if total % 2 = 0 then pushChunk rest (parentOutput top cv).chainingValue (total / 2)
    else cv :: top :: rest

def hash (input : List UInt8) : List UInt8 :=
  let chunks := nonEmpty (input.toChunks 1024)
  let stack := (chunks.dropLast.foldl (fun (stack, counter) chunk =>
      (pushChunk stack (chunkOutput counter chunk).chainingValue (counter + 1), counter + 1))
    ([], 0)).1
  (stack.foldl (fun output cv => parentOutput cv output.chainingValue)
    (chunkOutput (chunks.length - 1) (chunks.getLastD []))).rootBytes

end Blake3

def hexDigit (n : Nat) : Char := if n < 10 then Char.ofNat (48 + n) else Char.ofNat (87 + n)

/-- Bytes as lower-case hex text, two digits a byte. -/
def hex (bytes : List UInt8) : String :=
  String.ofList (bytes.flatMap fun byte => [hexDigit (byte.toNat / 16), hexDigit (byte.toNat % 16)])

-- Test vectors of the BLAKE3 reference: the empty input, and one and two blocks.
example : hex (Blake3.hash []) =
    "af1349b9f5f9a1a6a0404dea36dcc9499bcb25c9adc112b7cc9a93cae41f3262" := by
  decide +kernel

example : hex (Blake3.hash "abc".toUTF8.toList) =
    "6437b3ac38465133ffb63b75273a8db548c558465d79db03fd359c6cd5bd9d85" := by
  decide +kernel

example : hex (Blake3.hash ((List.range 65).map UInt8.ofNat)) =
    "de1e5fa0be70df6d2be8fffd0e99ceaa8eb6e8c93a63f2d8d1c30ecb6b263dee" := by
  decide +kernel

end Library
