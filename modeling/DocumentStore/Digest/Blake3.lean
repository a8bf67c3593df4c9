/-! The BLAKE3 digest of a list of bytes. The bytes are cut into chunks, each chunk is compressed
block by block, and the chunks are joined in pairs up to a single root. -/
namespace DocumentStore.Blake3

abbrev Words := Array UInt32

def initial : Words :=
  #[0x6a09e667, 0xbb67ae85, 0x3c6ef372, 0xa54ff53a, 0x510e527f, 0x9b05688c, 0x1f83d9ab, 0x5be0cd19]

/-- The order in which a round takes the words of the block left by the round before. -/
def schedule : List Nat := [2, 6, 3, 10, 7, 0, 4, 13, 1, 11, 12, 5, 9, 14, 15, 8]

def blockBytes : Nat := 64
def chunkBytes : Nat := 1024

def startFlag : UInt32 := 1
def endFlag : UInt32 := 2
def parentFlag : UInt32 := 4
def rootFlag : UInt32 := 8

def rotateRight (x n : UInt32) : UInt32 := (x >>> n) ||| (x <<< (32 - n))

/-- Mixes two words of a block into a column or a diagonal of the state. -/
def mix (s : Words) (a b c d : Nat) (x y : UInt32) : Words :=
  let va := s.getD a 0 + s.getD b 0 + x
  let vd := rotateRight (s.getD d 0 ^^^ va) 16
  let vc := s.getD c 0 + vd
  let vb := rotateRight (s.getD b 0 ^^^ vc) 12
  let va := va + vb + y
  let vd := rotateRight (vd ^^^ va) 8
  let vc := vc + vd
  let vb := rotateRight (vb ^^^ vc) 7
  (((s.set! a va).set! b vb).set! c vc).set! d vd

def round (s m : Words) : Words :=
  let w (i : Nat) := m.getD i 0
  let s := mix s 0 4 8 12 (w 0) (w 1)
  let s := mix s 1 5 9 13 (w 2) (w 3)
  let s := mix s 2 6 10 14 (w 4) (w 5)
  let s := mix s 3 7 11 15 (w 6) (w 7)
  let s := mix s 0 5 10 15 (w 8) (w 9)
  let s := mix s 1 6 11 12 (w 10) (w 11)
  let s := mix s 2 7 8 13 (w 12) (w 13)
  mix s 3 4 9 14 (w 14) (w 15)

def reorder (m : Words) : Words := (schedule.map fun i => m.getD i 0).toArray

def rounds : Nat → Words → Words → Words
  | 0, s, _ => s
  | n + 1, s, m => rounds n (round s m) (reorder m)

/-- The eight words that a block makes of the eight words before it. -/
def compress (chain block : Words) (counter : Nat) (length flags : UInt32) : Words :=
  let s := chain ++ (initial.take 4)
    ++ #[counter.toUInt32, (counter / 0x100000000).toUInt32, length, flags]
  let s := rounds 7 s block
  ((List.range 8).map fun i => s.getD i 0 ^^^ s.getD (i + 8) 0).toArray

def wordsOf : List UInt8 → List UInt32
  | a :: b :: c :: d :: r =>
    (a.toUInt32 ||| b.toUInt32 <<< 8 ||| c.toUInt32 <<< 16 ||| d.toUInt32 <<< 24) :: wordsOf r
  | _ => []

def blockOf (bytes : List UInt8) : Words :=
  (wordsOf (bytes ++ List.replicate (blockBytes - bytes.length) 0)).toArray

/-- A last block that has not been compressed yet, since the root is compressed in its own way. -/
structure Pending where
  chain : Words
  block : Words
  counter : Nat
  length : UInt32
  flags : UInt32

namespace Pending

def value (p : Pending) : Words := compress p.chain p.block p.counter p.length p.flags

def root (p : Pending) : Words := compress p.chain p.block 0 p.length (p.flags ||| rootFlag)

end Pending

/-- Compresses the blocks of a chunk up to its last one; `fuel` bounds the number of blocks. -/
def absorb (counter : Nat) : Nat → Words → UInt32 → List UInt8 → Pending
  | 0, chain, flags, bytes => ⟨chain, blockOf bytes, counter, bytes.length.toUInt32, flags ||| endFlag⟩
  | fuel + 1, chain, flags, bytes =>
    if bytes.length ≤ blockBytes then
      ⟨chain, blockOf bytes, counter, bytes.length.toUInt32, flags ||| endFlag⟩
    else
      absorb counter fuel (compress chain (blockOf (bytes.take blockBytes)) counter 64 flags) 0
        (bytes.drop blockBytes)

def chunk (counter : Nat) (bytes : List UInt8) : Pending :=
  absorb counter 16 initial startFlag bytes

/-- The chunks from a number on; there is always one. -/
def chunks (counter : Nat) (bytes : List UInt8) : List Pending :=
  if h : bytes.length ≤ chunkBytes then [chunk counter bytes]
  else
    have shorter : (bytes.drop chunkBytes).length < bytes.length := by
      have positive : 0 < chunkBytes := by decide
      rw [List.length_drop]
      omega
    chunk counter (bytes.take chunkBytes) :: chunks (counter + 1) (bytes.drop chunkBytes)
termination_by bytes.length
decreasing_by exact shorter

def parent (l r : Pending) : Pending := ⟨initial, l.value ++ r.value, 0, 64, parentFlag⟩

/-- Joins neighbours; an odd last one is left alone. -/
def joinPairs : List Pending → List Pending
  | l :: r :: rest => parent l r :: joinPairs rest
  | rest => rest

theorem length_joinPairs : (ps : List Pending) → 2 * (joinPairs ps).length ≤ ps.length + 1
  | [] => by simp [joinPairs]
  | [_] => by simp [joinPairs]
  | _ :: _ :: rest => by
    have := length_joinPairs rest
    simp only [joinPairs, List.length_cons]
    omega

def joinAll (p : Pending) (ps : List Pending) : Pending :=
  match ps with
  | [] => p
  | q :: rest => joinAll (parent p q) (joinPairs rest)
termination_by ps.length
decreasing_by have := length_joinPairs rest; simp only [List.length_cons]; omega

def hexByte (b : UInt8) : List Char :=
  let digit (n : Nat) : Char := Char.ofNat (if n < 10 then 48 + n else 87 + n)
  [digit (b.toNat / 16), digit (b.toNat % 16)]

def bytesOf (w : UInt32) : List UInt8 :=
  [w.toUInt8, (w >>> 8).toUInt8, (w >>> 16).toUInt8, (w >>> 24).toUInt8]

def hex (bytes : List UInt8) : String :=
  let root := match chunks 0 bytes with
    | p :: ps => (joinAll p ps).root
    | [] => #[]
  String.ofList ((root.toList.flatMap bytesOf).flatMap hexByte)

end DocumentStore.Blake3
