import AssocCache.Numeral

/-!
# Random numbers

A generator is asked for numbers below some bound.  What it draws depends on the bound and on
the place in its stream, and on nothing else (`Random.Generator`).

The generator of a seed draws from a stream of random words (`ChaCha.generator`).  The stream
consists of blocks of sixteen 32-bit words, and block number `c` is the ChaCha function with
eight rounds of the key and the counter `c`.  A 64-bit number takes two neighbouring words, the
low one first, so number `n` of the stream lies in block `n / 8` (`ChaCha.number`).

A number below a bound is drawn without bias: the product of the drawn number and the bound
has the choice in its upper 64 bits, and a draw whose lower 64 bits fall beyond the acceptance
zone is repeated.
-/

namespace AssocCache

/-- A stream of numbers below bounds of any size. -/
structure Random.Generator where
  /-- The number below a bound that is drawn at a place of the stream, and the place after
  it. -/
  below : Nat → Nat → Nat × Nat
  below_lt : ∀ {bound : Nat} (place : Nat), 0 < bound → (below bound place).1 < bound

/-! ## The ChaCha stream -/

namespace ChaCha

/-- Sixteen words: the state of the block function, and one block of its
output. -/
abbrev State := Vector UInt32 16

/-- Eight words, which select one stream. -/
abbrev Key := Vector UInt32 8

/-- A word with its bits rotated towards the high end.  Here `0 < bits < 32`. -/
def rotateLeft (x bits : UInt32) : UInt32 := (x <<< bits) ||| (x >>> (32 - bits))

/-- Mixes four words of the state. -/
def quarterRound (s : State) (a b c d : Fin 16) : State :=
  let s := s.set a (s[a] + s[b])
  let s := s.set d (rotateLeft (s[d] ^^^ s[a]) 16)
  let s := s.set c (s[c] + s[d])
  let s := s.set b (rotateLeft (s[b] ^^^ s[c]) 12)
  let s := s.set a (s[a] + s[b])
  let s := s.set d (rotateLeft (s[d] ^^^ s[a]) 8)
  let s := s.set c (s[c] + s[d])
  s.set b (rotateLeft (s[b] ^^^ s[c]) 7)

/-- Mixes the columns of the state, seen as a square, and then its diagonals. -/
def doubleRound (s : State) : State :=
  let s := quarterRound s 0 4 8 12
  let s := quarterRound s 1 5 9 13
  let s := quarterRound s 2 6 10 14
  let s := quarterRound s 3 7 11 15
  let s := quarterRound s 0 5 10 15
  let s := quarterRound s 1 6 11 12
  let s := quarterRound s 2 7 8 13
  quarterRound s 3 4 9 14

/-- The state that a block starts from: four constants, the key, the counter of
64 bits and a stream number of zero. -/
def start (key : Key) (counter : UInt64) : State :=
  #v[0x61707865, 0x3320646e, 0x79622d32, 0x6b206574,
    key[0], key[1], key[2], key[3], key[4], key[5], key[6], key[7],
    counter.toUInt32, (counter >>> 32).toUInt32, 0, 0]

/-- A block of the stream. -/
def block (key : Key) (counter : UInt64) : State :=
  let first := start key counter
  let mixed := doubleRound (doubleRound (doubleRound (doubleRound first)))
  mixed.zipWith (· + ·) first

/-- A 64-bit number of the stream, by its place. -/
def number (key : Key) (n : Nat) : UInt64 :=
  let words := block key (UInt64.ofNat (n / 8))
  let low : Fin 16 := ⟨2 * (n % 8), by omega⟩
  let high : Fin 16 := ⟨2 * (n % 8) + 1, by omega⟩
  words[low].toUInt64 ||| (words[high].toUInt64 <<< 32)

/-! ## Keys from short seeds -/

/-- One step of the linear congruential generator that spreads a seed. -/
def advance (state : UInt64) : UInt64 := state * 6364136223846793005 + 11634580027462260723

/-- The key word of a generator state: its upper bits folded and rotated. -/
def keyWord (state : UInt64) : UInt32 :=
  let folded := (((state >>> 18) ^^^ state) >>> 27).toUInt32
  let turn := (state >>> 59).toUInt32
  (folded >>> turn) ||| (folded <<< ((32 - turn) % 32))

/-- The states of the generator from the seed on, without the seed itself. -/
def seedStates : Nat → UInt64 → List UInt64
  | 0, _ => []
  | n + 1, state => advance state :: seedStates n (advance state)

theorem length_seedStates (n : Nat) (state : UInt64) : (seedStates n state).length = n := by
  induction n generalizing state with
  | zero => rfl
  | succ n ih => simp [seedStates, ih]

/-- The key that a seed of 64 bits stands for. -/
def keyOfSeed (seed : UInt64) : Key :=
  ⟨((seedStates 8 seed).map keyWord).toArray, by simp [length_seedStates]⟩

/-! ## Uniform choices -/

/-- The largest lower half of a product that is accepted: one less than the
largest multiple of the bound by a power of two within 64 bits. -/
def zone (bound : Nat) : Nat := bound <<< (63 - bound.log2) - 1

/-- The numbers after which the stream repeats itself.  A bound for which a whole
period holds no acceptable number will never find one. -/
def period : Nat := 2 ^ (67 : Nat)

/-- Draws until a number is accepted, at most `tries` times. -/
def drawBelow (key : Key) (bound : Nat) : Nat → Nat → Nat × Nat
  | 0, place => (0, place)
  | tries + 1, place =>
    let product := (number key place).toNat * bound
    if product % 2 ^ (64 : Nat) ≤ zone bound then (product / 2 ^ (64 : Nat), place + 1)
    else drawBelow key bound tries (place + 1)

theorem drawBelow_lt {key : Key} {bound : Nat} (h : 0 < bound) (tries place : Nat) :
    (drawBelow key bound tries place).1 < bound := by
  induction tries generalizing place with
  | zero => exact h
  | succ tries ih =>
    rw [drawBelow]
    split
    · have hn := (number key place).toNat_lt
      exact Nat.div_lt_of_lt_mul (Nat.mul_lt_mul_of_lt_of_le hn (Nat.le_refl _) h)
    · exact ih (place + 1)

/-- The generator of a seed. -/
def generator (seed : UInt64) : Random.Generator :=
  let key := keyOfSeed seed
  { below bound place := drawBelow key bound period place
    below_lt place h := drawBelow_lt h period place }

end ChaCha

end AssocCache
