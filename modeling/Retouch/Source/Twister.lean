/-!
# The Mersenne twister

The pseudo-random generator MT19937: 624 words of state, renewed all at once, and one tempered word
per draw. A seed of any size is taken as its words of 32 bits, the lowest first.
-/

namespace Retouch

structure Twister where
  words : Array UInt32
  /-- How many words of the state have been drawn. -/
  drawn : Nat

namespace Twister

def size : Nat := 624

/-- The distance of the word that takes part in the renewal of a word. -/
def middle : Nat := 397

/-- The words that follow from one word. -/
def expandWord (seed : UInt32) : Array UInt32 :=
  (List.range (size - 1)).foldl
    (fun words index =>
      let previous := words.back?.getD 0
      words.push ((1812433253 : UInt32) * (previous ^^^ (previous >>> 30)) +
        UInt32.ofNat (index + 1)))
    #[seed]

/-- The words of 32 bits of a natural number, the lowest first; zero has one word. -/
def wordsOf (value : Nat) : List UInt32 :=
  if value < Nat.pow 2 32 then
    [UInt32.ofNat value]
  else
    UInt32.ofNat (value % Nat.pow 2 32) :: wordsOf (value / Nat.pow 2 32)
termination_by value
decreasing_by
  have size : Nat.pow 2 32 = 4294967296 := rfl
  simp only [size] at *
  omega

/-- The word before a position, the first position coming after the last one. -/
def wordBefore (words : Array UInt32) (position : Nat) : UInt32 :=
  words[if position = 0 then size - 1 else position - 1]!

/-- The position after a position at which the first word is mixed anew from the last one. -/
def advance (words : Array UInt32) (position : Nat) : Array UInt32 × Nat :=
  if position + 1 < size then (words, position + 1)
  else (words.set! 0 (words[size - 1]!), 1)

/-- Mixes the words of a seed into the state. -/
def mixSeed (key : Array UInt32) (words : Array UInt32) : Array UInt32 × Nat :=
  let rounds := (List.range (max size key.size)).foldl
    (fun (words, position) round =>
      let place := round % key.size
      let previous := wordBefore words position
      let mixed := (words[position]! ^^^ ((previous ^^^ (previous >>> 30)) * 1664525)) +
        key[place]! + UInt32.ofNat place
      advance (words.set! position mixed) position)
    (words, 1)
  rounds

/-- Mixes the state once more without the seed. -/
def mixAgain (words : Array UInt32) (position : Nat) : Array UInt32 :=
  let rounds := (List.range (size - 1)).foldl
    (fun (words, position) _ =>
      let previous := wordBefore words position
      let mixed := (words[position]! ^^^ ((previous ^^^ (previous >>> 30)) * 1566083941)) -
        UInt32.ofNat position
      advance (words.set! position mixed) position)
    (words, position)
  rounds.1

def ofSeed (seed : Nat) : Twister :=
  let (words, position) := mixSeed (wordsOf seed).toArray (expandWord 19650218)
  ⟨(mixAgain words position).set! 0 0x80000000, size⟩

/-- The word that takes the place of a word, given the words renewed so far. -/
def renewedWord (words : Array UInt32) (position : Nat) : UInt32 :=
  let upper := words[position]! &&& 0x80000000
  let lower := words[(position + 1) % size]! &&& 0x7fffffff
  let joined := upper ||| lower
  let twisted := words[(position + middle) % size]! ^^^ (joined >>> 1)
  if joined &&& 1 = 0 then twisted else twisted ^^^ 0x9908b0df

def renew (words : Array UInt32) : Array UInt32 :=
  (List.range size).foldl (fun words position => words.set! position (renewedWord words position))
    words

/-- A word with its bits spread. -/
def temper (word : UInt32) : UInt32 :=
  let a := word ^^^ (word >>> 11)
  let b := a ^^^ ((a <<< 7) &&& 0x9d2c5680)
  let c := b ^^^ ((b <<< 15) &&& 0xefc60000)
  c ^^^ (c >>> 18)

def next (twister : Twister) : UInt32 × Twister :=
  let ready : Twister :=
    if twister.drawn < size then twister else ⟨renew twister.words, 0⟩
  (temper ready.words[ready.drawn]!, ⟨ready.words, ready.drawn + 1⟩)

def bitLength (value : Nat) : Nat :=
  if value = 0 then 0 else value.log2 + 1

/-- How often a choice is drawn before it is given up; that many refusals in a row do not happen. -/
def drawLimit : Nat := 10000

/-- A natural number below a bound of at most 32 bits: the highest bits of a word, drawn again until
they are below the bound. -/
def below (twister : Twister) (bound : Nat) : Nat × Twister :=
  go drawLimit twister
where
  go : Nat → Twister → Nat × Twister
    | 0, twister => (0, twister)
    | draws + 1, twister =>
        let (word, after) := twister.next
        let value := word.toNat >>> (32 - bitLength bound)
        if value < bound then (value, after) else go draws after

end Twister

end Retouch
