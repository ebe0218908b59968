import JavaOutline.Text.Utf8

/-!
The BLAKE3 digest.

The input is cut into chunks of 1024 bytes and each chunk into blocks of 64 bytes. The blocks of a
chunk are compressed one after another; the chunks are the leaves of a binary tree in which
neighbours are joined level by level and a last one without neighbour moves up. The digest is the
first 32 bytes of the compression at the root.
-/

namespace JavaOutline.Digest

/-- Eight words that carry the digest of a part of the input. -/
abbrev Chain := Vector UInt32 8

/-- Sixteen words: a block of input, or the state of a compression. -/
abbrev Block := Vector UInt32 16

/-- The chain with which every chunk begins. -/
def initialChain : Chain :=
  #v[0x6A09E667, 0xBB67AE85, 0x3C6EF372, 0xA54FF53A,
     0x510E527F, 0x9B05688C, 0x1F83D9AB, 0x5BE0CD19]

def chunkStart : UInt32 := 1

def chunkEnd : UInt32 := 2

/-- The flag of a block that joins two parts. -/
def parentFlag : UInt32 := 4

def rootFlag : UInt32 := 8

/-- The order in which a round leaves the words of the block to the next one. -/
def permutation : Vector (Fin 16) 16 :=
  #v[2, 6, 3, 10, 7, 0, 4, 13, 1, 11, 12, 5, 9, 14, 15, 8]

def rotateRight (w n : UInt32) : UInt32 := (w >>> n) ||| (w <<< (32 - n))

/-- Mix two words of input into four words of the state. -/
def mix (s : Block) (a b c d : Fin 16) (x y : UInt32) : Block :=
  let wa := s[a] + s[b] + x
  let wd := rotateRight (s[d] ^^^ wa) 16
  let wc := s[c] + wd
  let wb := rotateRight (s[b] ^^^ wc) 12
  let wa := wa + wb + y
  let wd := rotateRight (wd ^^^ wa) 8
  let wc := wc + wd
  let wb := rotateRight (wb ^^^ wc) 7
  (((s.set a wa).set b wb).set c wc).set d wd

/-- One round: first the columns of the state, then its diagonals. -/
def round (s m : Block) : Block :=
  let s := mix s 0 4 8 12 m[0] m[1]
  let s := mix s 1 5 9 13 m[2] m[3]
  let s := mix s 2 6 10 14 m[4] m[5]
  let s := mix s 3 7 11 15 m[6] m[7]
  let s := mix s 0 5 10 15 m[8] m[9]
  let s := mix s 1 6 11 12 m[10] m[11]
  let s := mix s 2 7 8 13 m[12] m[13]
  mix s 3 4 9 14 m[14] m[15]

def rounds : Nat → Block → Block → Block
  | 0, s, _ => s
  | n + 1, s, m => rounds n (round s m) (permutation.map fun i => m[i])

structure Input where
  chain : Chain
  block : Block
  counter : UInt64
  length : UInt32
  flags : UInt32
  deriving Inhabited

/-- The chain that a compression leads to. -/
def Input.compress (i : Input) : Chain :=
  let h := i.chain
  let start : Block :=
    #v[h[0], h[1], h[2], h[3], h[4], h[5], h[6], h[7],
       0x6A09E667, 0xBB67AE85, 0x3C6EF372, 0xA54FF53A,
       i.counter.toUInt32, (i.counter >>> 32).toUInt32, i.length, i.flags]
  let s := rounds 7 start i.block
  #v[s[0] ^^^ s[8], s[1] ^^^ s[9], s[2] ^^^ s[10], s[3] ^^^ s[11],
     s[4] ^^^ s[12], s[5] ^^^ s[13], s[6] ^^^ s[14], s[7] ^^^ s[15]]

/-- The word made of four bytes, the lowest first. -/
def wordAt (bytes : Array UInt8) (i : Nat) : UInt32 :=
  let byte (k : Nat) : UInt32 := (bytes.getD (4 * i + k) 0).toUInt32
  byte 0 ||| (byte 1 <<< 8) ||| (byte 2 <<< 16) ||| (byte 3 <<< 24)

/-- The block made of at most 64 bytes, filled up with zeros. -/
def blockOf (bytes : List UInt8) : Block :=
  let a := bytes.toArray
  Vector.ofFn fun i : Fin 16 => wordAt a i.val

/-- Cut a list into parts of at most `size` elements, but into no more than `count` parts. -/
def parts (size : Nat) : Nat → List UInt8 → List (List UInt8)
  | 0, _ => []
  | _ + 1, [] => []
  | count + 1, bytes => bytes.take size :: parts size count (bytes.drop size)

/-- Compress the blocks of a chunk up to the last one, whose compression is left open. -/
def blockInputs (counter : UInt64) : Chain → UInt32 → List (List UInt8) → Input
  | chain, start, [] => ⟨chain, blockOf [], counter, 0, start ||| chunkEnd⟩
  | chain, start, [last] =>
      ⟨chain, blockOf last, counter, last.length.toUInt32, start ||| chunkEnd⟩
  | chain, start, block :: rest =>
      let input : Input := ⟨chain, blockOf block, counter, block.length.toUInt32, start⟩
      blockInputs counter input.compress 0 rest

def chunkInput (counter : Nat) (chunk : List UInt8) : Input :=
  blockInputs counter.toUInt64 initialChain chunkStart (parts 64 16 chunk)

def parentInput (left right : Input) : Input :=
  { chain := initialChain
    block := left.compress ++ right.compress
    counter := 0
    length := 64
    flags := parentFlag }

def joinPairs : List Input → List Input
  | left :: right :: rest => parentInput left right :: joinPairs rest
  | short => short

/-- Join level by level, at most `levels` times. -/
def joinAll : Nat → List Input → List Input
  | 0, nodes => nodes
  | levels + 1, nodes =>
      match nodes with
      | [] => []
      | [one] => [one]
      | _ => joinAll levels (joinPairs nodes)

def wordsOf (bytes : List UInt8) : Chain :=
  let chunks :=
    match parts 1024 (bytes.length / 1024 + 1) bytes with
    | [] => [[]]
    | several => several
  let leaves := chunks.zipIdx.map fun (chunk, i) => chunkInput i chunk
  let root := (joinAll leaves.length leaves).headD default
  { root with flags := root.flags ||| rootFlag : Input }.compress

def hexDigit (n : Nat) : Char :=
  if n < 10 then Char.ofNat ('0'.toNat + n) else Char.ofNat ('a'.toNat + (n - 10))

/-- The digits of a word, its lowest byte first. -/
def hexOfWord (w : UInt32) : List Char :=
  [1, 256, 65536, 16777216].flatMap fun unit =>
    let byte := w.toNat / unit % 256
    [hexDigit (byte / 16), hexDigit (byte % 16)]

/-- The digest of a text in hexadecimal digits. -/
def ofText (s : String) : String :=
  String.ofList ((wordsOf (Text.encode s)).toList.flatMap hexOfWord)

end JavaOutline.Digest
