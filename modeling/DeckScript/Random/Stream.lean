import DeckScript.Random.ChaCha

/-!
# The stream of random numbers

A seed fixes an endless sequence of numbers in the interval from zero up to one. A stream is the
seed's key together with how many numbers have been drawn, so that two streams of one seed differ
in their position alone.

## Main definitions

* `RandomStream` — a key and a position
* `RandomStream.ofSeed` — the start of a seed's sequence
* `RandomStream.get` — the number at a position
* `RandomStream.draw` — the next number and the stream after it
-/

namespace DeckScript

/-- A seed's key and how many numbers have been drawn. -/
structure RandomStream where
  key : ChaCha.Key
  position : Nat

namespace RandomStream

/-- One step of the generator that spreads a seed over a key. -/
def stretch (s : UInt64) : UInt64 := s * 6364136223846793005 + 11634580027462260723

/-- The word that a state of that generator gives. -/
def stretchedWord (s : UInt64) : UInt32 :=
  let x := (((s >>> 18) ^^^ s) >>> 27).toUInt32
  let turn := (s >>> 59).toUInt32
  (x >>> turn) ||| (x <<< ((32 - turn) % 32))

/-- Four consecutive words, and the state after them. -/
def stretchedRow (s : UInt64) : ChaCha.Row × UInt64 :=
  let a := stretch s
  let b := stretch a
  let c := stretch b
  let d := stretch c
  (⟨stretchedWord a, stretchedWord b, stretchedWord c, stretchedWord d⟩, d)

/-- The key of a seed. -/
def keyOfSeed (seed : UInt64) : ChaCha.Key :=
  let (low, s) := stretchedRow seed
  ⟨low, (stretchedRow s).1⟩

/-- The stream of a seed before the first draw. -/
def ofSeed (seed : UInt64) : RandomStream := ⟨keyOfSeed seed, 0⟩

/-- The number of double rounds that a block takes. -/
def doubleRounds : Nat := 6

/-- Number `n` of the sequence: two words, the lower one first, of which the upper 53 bits count as
a fraction. A block holds eight numbers. -/
def get (key : ChaCha.Key) (n : Nat) : Float :=
  let words := ChaCha.block doubleRounds key (UInt64.ofNat (n / 8))
  -- A number never takes words of two blocks, since a block has an even number of them.
  let word := fun i => (words.getD i 0).toUInt64
  let bits := (word (2 * (n % 8) + 1) <<< 32) ||| word (2 * (n % 8))
  -- The factor is `2 ^ (-53)`; 53 bits times it is exact.
  (bits >>> 11).toFloat * Float.ofBits 0x3CA0000000000000

/-- The next number and the stream after it. -/
def draw (s : RandomStream) : Float × RandomStream :=
  (get s.key s.position, { s with position := s.position + 1 })

@[simp] theorem draw_snd_key (s : RandomStream) : s.draw.2.key = s.key := rfl

@[simp] theorem draw_snd_position (s : RandomStream) : s.draw.2.position = s.position + 1 := rfl

end RandomStream

end DeckScript
