/-
**The BLAKE3 digest.**

The input is cut into chunks of 1024 bytes, each compressed block by block into a chaining value;
the chunks are the leaves of a binary tree in which every left subtree is full, and the root is
compressed once more for the digest.

Main definitions:

* `Blake3.compress` — one compression;
* `Blake3.Node` — a compression that is still to be made, as a chaining value or as the digest;
* `Blake3.chunk`, `Blake3.parent`, `Blake3.subtree` — the nodes of the tree;
* `Blake3.digest` — the digest of a byte string, 32 bytes.

Main results:

* `Blake3.length_digest` — a digest takes 32 bytes.
-/

import ScenePack.Word

set_option relaxedAutoImplicit false
set_option autoImplicit false

namespace ScenePack.Blake3

/-- The words of a state or of a message block. -/
abbrev Words := Array UInt32

/-! ### Compression -/

/-- The initial chaining value. -/
def start : Words :=
  #[0x6A09E667, 0xBB67AE85, 0x3C6EF372, 0xA54FF53A, 0x510E527F, 0x9B05688C, 0x1F83D9AB, 0x5BE0CD19]

/-- The order in which a round takes the message words of the round before. -/
def schedule : List Nat := [2, 6, 3, 10, 7, 0, 4, 13, 1, 11, 12, 5, 9, 14, 15, 8]

/-- A rotation towards the low bits. -/
def rotate (word count : UInt32) : UInt32 := (word >>> count) ||| (word <<< (32 - count))

/-- A quarter round on the state words `a`, `b`, `c`, `d` with two message words. -/
def quarter (state : Words) (a b c d : Nat) (x y : UInt32) : Words :=
  let va := state.getD a 0 + state.getD b 0 + x
  let vd := rotate (state.getD d 0 ^^^ va) 16
  let vc := state.getD c 0 + vd
  let vb := rotate (state.getD b 0 ^^^ vc) 12
  let va := va + vb + y
  let vd := rotate (vd ^^^ va) 8
  let vc := vc + vd
  let vb := rotate (vb ^^^ vc) 7
  (((state.set! a va).set! b vb).set! c vc).set! d vd

/-- The columns and then the diagonals that a round mixes. -/
def quarters : List (Nat × Nat × Nat × Nat) :=
  [(0, 4, 8, 12), (1, 5, 9, 13), (2, 6, 10, 14), (3, 7, 11, 15),
   (0, 5, 10, 15), (1, 6, 11, 12), (2, 7, 8, 13), (3, 4, 9, 14)]

/-- One round: every quarter round takes the next two words of the block. -/
def round (state block : Words) : Words :=
  quarters.zipIdx.foldl (fun state ((a, b, c, d), i) =>
    quarter state a b c d (block.getD (2 * i) 0) (block.getD (2 * i + 1) 0)) state

/-- Some rounds, with the block rearranged between them. -/
def rounds : (count : Nat) → (state block : Words) → Words
  | 0, state, _ => state
  | count + 1, state, block =>
      rounds count (round state block) ((schedule.map fun i => block.getD i 0).toArray)

/-- The compression of a block of `length` bytes under a chaining value. -/
def compress (chaining block : Words) (counter length : Nat) (flags : UInt32) : Words :=
  let low := UInt32.ofNat counter
  let high := UInt32.ofNat (counter / Word.limit 4)
  let state := rounds 7
    (chaining ++ start.extract 0 4 ++ #[low, high, UInt32.ofNat length, flags]) block
  ((List.range 8).map fun i => state.getD i 0 ^^^ state.getD (i + 8) 0).toArray

/-! ### The tree -/

/-- The flags of a first block, a last block, a parent and the root. -/
def firstBlock : UInt32 := 1

@[inherit_doc firstBlock] def lastBlock : UInt32 := 2

@[inherit_doc firstBlock] def parentBlock : UInt32 := 4

@[inherit_doc firstBlock] def rootBlock : UInt32 := 8

/-- The bytes of a block and of a chunk. -/
def blockSize : Nat := 64

@[inherit_doc blockSize] def chunkSize : Nat := 1024

/-- A compression that is still to be made. -/
structure Node where
  chaining : Words
  block : Words
  counter : Nat
  length : Nat
  flags : UInt32

/-- The chaining value of a node that is not the root. -/
def Node.output (node : Node) : Words :=
  compress node.chaining node.block node.counter node.length node.flags

/-- The output of the root. -/
def Node.root (node : Node) : Words :=
  compress node.chaining node.block 0 node.length (node.flags ||| rootBlock)

/-- The sixteen words of a block, filled up with zeros. -/
def blockWords (bytes : Bytes) : Words :=
  ((List.range 16).map fun i => UInt32.ofNat (Word.decode ((bytes.drop (4 * i)).take 4))).toArray

/-- The node of the last of the blocks of a chunk, after the blocks before it have been compressed.
A chunk of no bytes has one block; every block but the last is full. -/
def chunkFrom : (blocks : Nat) → (chaining : Words) → (flags : UInt32) → (index : Nat) →
    Bytes → Node
  | 0, chaining, flags, index, bytes =>
      ⟨chaining, blockWords bytes, index, bytes.length, flags ||| lastBlock⟩
  | blocks + 1, chaining, flags, index, bytes =>
      if bytes.length ≤ blockSize then
        ⟨chaining, blockWords bytes, index, bytes.length, flags ||| lastBlock⟩
      else
        let next := compress chaining (blockWords (bytes.take blockSize)) index blockSize flags
        chunkFrom blocks next 0 index (bytes.drop blockSize)

/-- The node of a chunk with the given index. -/
def chunk (index : Nat) (bytes : Bytes) : Node :=
  chunkFrom (chunkSize / blockSize) start firstBlock index bytes

/-- The node above two others. -/
def parent (left right : Node) : Node :=
  ⟨start, left.output ++ right.output, 0, blockSize, parentBlock⟩

/-- The node of at most `2 ^ height` chunks, the first of which has the given index.  A left
subtree holds the largest power of two of chunks that leaves something for the right one. -/
def subtree : (height index : Nat) → Bytes → Node
  | 0, index, bytes => chunk index bytes
  | height + 1, index, bytes =>
      let half := chunkSize * Nat.pow 2 height
      if bytes.length ≤ half then subtree height index bytes
      else
        parent (subtree height index (bytes.take half))
          (subtree height (index + Nat.pow 2 height) (bytes.drop half))

/-- The digest of a byte string. -/
def digest (bytes : Bytes) : Bytes :=
  (subtree (Nat.log2 (bytes.length / chunkSize) + 1) 0 bytes).root.toList.flatMap fun word =>
    Word.encode 4 word.toNat

/-- A digest takes 32 bytes. -/
theorem length_digest (bytes : Bytes) : (digest bytes).length = 32 := by
  have hroot : ∀ node : Node, node.root.size = 8 := fun node => by simp [Node.root, compress]
  simp [digest, List.length_flatMap, List.map_const', hroot]

end ScenePack.Blake3
