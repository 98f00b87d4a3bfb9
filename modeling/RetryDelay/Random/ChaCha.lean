set_option autoImplicit false

namespace RetryDelay.ChaCha

abbrev Block := Vector UInt32 16

def rotateLeft (x r : UInt32) : UInt32 := (x <<< r) ||| (x >>> (32 - r))

def rotateRight (x r : UInt32) : UInt32 := (x >>> r) ||| (x <<< (32 - r))

def quarterRound (s : Block) (a b c d : Fin 16) : Block :=
  let s := s.set a (s[a] + s[b])
  let s := s.set d (rotateLeft (s[d] ^^^ s[a]) 16)
  let s := s.set c (s[c] + s[d])
  let s := s.set b (rotateLeft (s[b] ^^^ s[c]) 12)
  let s := s.set a (s[a] + s[b])
  let s := s.set d (rotateLeft (s[d] ^^^ s[a]) 8)
  let s := s.set c (s[c] + s[d])
  s.set b (rotateLeft (s[b] ^^^ s[c]) 7)

def doubleRound (s : Block) : Block :=
  let s := quarterRound s 0 4 8 12
  let s := quarterRound s 1 5 9 13
  let s := quarterRound s 2 6 10 14
  let s := quarterRound s 3 7 11 15
  let s := quarterRound s 0 5 10 15
  let s := quarterRound s 1 6 11 12
  let s := quarterRound s 2 7 8 13
  quarterRound s 3 4 9 14

/-- The block of a key and a block number before its rounds: the constant words, the key, the
number with its low half first, and an empty nonce. -/
def start (key : Vector UInt32 8) (number : UInt64) : Block :=
  #v[0x61707865, 0x3320646e, 0x79622d32, 0x6b206574,
    key[0], key[1], key[2], key[3], key[4], key[5], key[6], key[7],
    number.toUInt32, (number >>> 32).toUInt32, 0, 0]

/-- A block of the stream: twelve rounds, and the start added to what they give. -/
def block (key : Vector UInt32 8) (number : UInt64) : Block :=
  let s := start key number
  let mixed := doubleRound (doubleRound (doubleRound (doubleRound (doubleRound (doubleRound s)))))
  Vector.zipWith (· + ·) mixed s

def word (key : Vector UInt32 8) (i : Nat) : UInt32 :=
  (block key (UInt64.ofNat (i / 16)))[i % 16]

/-- One step of the linear congruence that spreads a seed over a key. -/
def spread (state : UInt64) : UInt64 := state * 6364136223846793005 + 11634580027462260723

def spreadWord (state : UInt64) : UInt32 :=
  rotateRight (((state >>> 18) ^^^ state) >>> 27).toUInt32 (state >>> 59).toUInt32

def spreadBy (seed : UInt64) : Nat → UInt64
  | 0 => seed
  | n + 1 => spread (spreadBy seed n)

def keyOfSeed (seed : UInt64) : Vector UInt32 8 :=
  Vector.ofFn fun i => spreadWord (spreadBy seed (i + 1))

/-- The numbers of 64 bits that a seed yields, each from two words with the low one first. -/
def numbers (seed : UInt64) : Nat → UInt64 :=
  let key := keyOfSeed seed
  fun n => (word key (2 * n)).toUInt64 ||| ((word key (2 * n + 1)).toUInt64 <<< 32)

end RetryDelay.ChaCha
