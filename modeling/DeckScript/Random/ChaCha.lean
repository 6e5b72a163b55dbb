/-!
# The ChaCha block function

A block of sixteen words is computed from a key of eight words and a counter: the words are laid
out in four rows, stirred by double rounds and added to what they were at the start.

## Main definitions

* `Row` — four words side by side
* `State` — four rows
* `State.doubleRound` — one round along the columns and one along the diagonals
* `block` — the words of one block
-/

namespace DeckScript.ChaCha

/-- Four words. -/
structure Row where
  a : UInt32
  b : UInt32
  c : UInt32
  d : UInt32

namespace Row

/-- Two rows combined word by word. -/
def zipWith (f : UInt32 → UInt32 → UInt32) (x y : Row) : Row :=
  ⟨f x.a y.a, f x.b y.b, f x.c y.c, f x.d y.d⟩

/-- The words of a row, each turned left by `n` bits. -/
def rotateBits (n : UInt32) (x : Row) : Row :=
  let turn := fun w : UInt32 => (w <<< n) ||| (w >>> (32 - n))
  ⟨turn x.a, turn x.b, turn x.c, turn x.d⟩

/-- The row with its words moved one place to the left. -/
def shift (x : Row) : Row := ⟨x.b, x.c, x.d, x.a⟩

/-- The words of a row in order. -/
def toList (x : Row) : List UInt32 := [x.a, x.b, x.c, x.d]

end Row

/-- Four rows of four words. -/
structure State where
  first : Row
  second : Row
  third : Row
  fourth : Row

namespace State

/-- Add one row to another and mix the sum into a third, turned by `n` bits. -/
def mix (n : UInt32) (x y z : Row) : Row × Row :=
  let x := Row.zipWith (· + ·) x y
  (x, (Row.zipWith (· ^^^ ·) z x).rotateBits n)

/-- A quarter round on each column. -/
def columns (s : State) : State :=
  let (a, d) := mix 16 s.first s.second s.fourth
  let (c, b) := mix 12 s.third d s.second
  let (a, d) := mix 8 a b d
  let (c, b) := mix 7 c d b
  ⟨a, b, c, d⟩

/-- A round along the columns, then one along the diagonals. -/
def doubleRound (s : State) : State :=
  let s := s.columns
  let t := columns ⟨s.first, s.second.shift, s.third.shift.shift, s.fourth.shift.shift.shift⟩
  ⟨t.first, t.second.shift.shift.shift, t.third.shift.shift, t.fourth.shift⟩

/-- Two states added word by word. -/
def add (s t : State) : State :=
  ⟨s.first.zipWith (· + ·) t.first, s.second.zipWith (· + ·) t.second,
   s.third.zipWith (· + ·) t.third, s.fourth.zipWith (· + ·) t.fourth⟩

/-- The words of a state, row by row. -/
def toList (s : State) : List UInt32 :=
  s.first.toList ++ s.second.toList ++ s.third.toList ++ s.fourth.toList

end State

/-- A key of eight words. -/
structure Key where
  low : Row
  high : Row

/-- The words that every block starts with. -/
def constants : Row := ⟨0x61707865, 0x3320646E, 0x79622D32, 0x6B206574⟩

/-- The state before the rounds: constants, key, the counter's low and high half, and a nonce of
zero. -/
def start (key : Key) (counter : UInt64) : State :=
  ⟨constants, key.low, key.high, ⟨counter.toUInt32, (counter >>> 32).toUInt32, 0, 0⟩⟩

/-- Apply `n` double rounds. -/
def rounds : Nat → State → State
  | 0, s => s
  | n + 1, s => rounds n s.doubleRound

/-- The words of the block with the given counter, after `n` double rounds. -/
def block (n : Nat) (key : Key) (counter : UInt64) : List UInt32 :=
  ((rounds n (start key counter)).add (start key counter)).toList

end DeckScript.ChaCha
