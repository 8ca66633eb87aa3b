import CommandLog.Text.Combining

/-!
# Display width

How many columns of a terminal a text takes. Most characters take one; those that extend the
character before them, or belong to the one after them, take none; those of the East Asian scripts
and most pictographs take two.

In a few scripts, a sequence is drawn as one sign and takes fewer columns than its characters by
themselves: an alef joins a lam before it, whatever marks the lam bears; a Khmer consonant is
written below another one; two Tifinagh consonants or two Lisu tone letters form one letter; and
Kirat Rai vowels are made up of simpler ones. A person or hand takes no column of its own when a
skin tone follows. What a character takes can thus depend on the one after it, so the width of a
text is found from its end.

* `CommandLog.Text.charWidth` – the width of a character by itself;
* `CommandLog.Text.Follower` – what a character has behind it, as far as its width depends on that;
* `CommandLog.Text.widthBefore` – the width of a character in front of a follower;
* `CommandLog.Text.width` – **the width of a text**.
-/

namespace CommandLog.Text

/-! ### A character by itself -/

set_option maxRecDepth 4000 in
/-- The characters that take two columns. -/
def wide : Ranges :=
  #[
    (0x1100, 0x115f), (0x231a, 0x231b), (0x2329, 0x232a), (0x23e9, 0x23ec), (0x23f0, 0x23f0),
    (0x23f3, 0x23f3), (0x25fd, 0x25fe), (0x2614, 0x2615), (0x2630, 0x2637), (0x2648, 0x2653),
    (0x267f, 0x267f), (0x268a, 0x268f), (0x2693, 0x2693), (0x26a1, 0x26a1), (0x26aa, 0x26ab),
    (0x26bd, 0x26be), (0x26c4, 0x26c5), (0x26ce, 0x26ce), (0x26d4, 0x26d4), (0x26ea, 0x26ea),
    (0x26f2, 0x26f3), (0x26f5, 0x26f5), (0x26fa, 0x26fa), (0x26fd, 0x26fd), (0x2705, 0x2705),
    (0x270a, 0x270b), (0x2728, 0x2728), (0x274c, 0x274c), (0x274e, 0x274e), (0x2753, 0x2755),
    (0x2757, 0x2757), (0x2795, 0x2797), (0x27b0, 0x27b0), (0x27bf, 0x27bf), (0x2b1b, 0x2b1c),
    (0x2b50, 0x2b50), (0x2b55, 0x2b55), (0x2e80, 0x2e99), (0x2e9b, 0x2ef3), (0x2f00, 0x2fd5),
    (0x2ff0, 0x3029), (0x3030, 0x303e), (0x3041, 0x3096), (0x309b, 0x30ff), (0x3105, 0x312f),
    (0x3131, 0x3163), (0x3165, 0x318e), (0x3190, 0x31e5), (0x31ef, 0x321e), (0x3220, 0x3247),
    (0x3250, 0xa48c), (0xa490, 0xa4c6), (0xa960, 0xa97c), (0xac00, 0xd7a3), (0xf900, 0xfaff),
    (0xfe10, 0xfe19), (0xfe30, 0xfe52), (0xfe54, 0xfe66), (0xfe68, 0xfe6b), (0xff01, 0xff60),
    (0xffe0, 0xffe6), (0x16fe0, 0x16fe3), (0x16ff2, 0x16ff6), (0x17000, 0x18cd5),
    (0x18cff, 0x18d1e), (0x18d80, 0x18df2), (0x1aff0, 0x1aff3), (0x1aff5, 0x1affb),
    (0x1affd, 0x1affe), (0x1b000, 0x1b122), (0x1b132, 0x1b132), (0x1b150, 0x1b152),
    (0x1b155, 0x1b155), (0x1b164, 0x1b167), (0x1b170, 0x1b2fb), (0x1d300, 0x1d356),
    (0x1d360, 0x1d376), (0x1f004, 0x1f004), (0x1f0cf, 0x1f0cf), (0x1f18e, 0x1f18e),
    (0x1f191, 0x1f19a), (0x1f200, 0x1f202), (0x1f210, 0x1f23b), (0x1f240, 0x1f248),
    (0x1f250, 0x1f251), (0x1f260, 0x1f265), (0x1f300, 0x1f320), (0x1f32d, 0x1f335),
    (0x1f337, 0x1f37c), (0x1f37e, 0x1f393), (0x1f3a0, 0x1f3ca), (0x1f3cf, 0x1f3d3),
    (0x1f3e0, 0x1f3f0), (0x1f3f4, 0x1f3f4), (0x1f3f8, 0x1f43e), (0x1f440, 0x1f440),
    (0x1f442, 0x1f4fc), (0x1f4ff, 0x1f53d), (0x1f54b, 0x1f54e), (0x1f550, 0x1f567),
    (0x1f57a, 0x1f57a), (0x1f595, 0x1f596), (0x1f5a4, 0x1f5a4), (0x1f5fb, 0x1f64f),
    (0x1f680, 0x1f6c5), (0x1f6cc, 0x1f6cc), (0x1f6d0, 0x1f6d2), (0x1f6d5, 0x1f6d8),
    (0x1f6dc, 0x1f6df), (0x1f6eb, 0x1f6ec), (0x1f6f4, 0x1f6fc), (0x1f7e0, 0x1f7eb),
    (0x1f7f0, 0x1f7f0), (0x1f90c, 0x1f93a), (0x1f93c, 0x1f945), (0x1f947, 0x1f9ff),
    (0x1fa70, 0x1fa7c), (0x1fa80, 0x1fa8a), (0x1fa8e, 0x1fac6), (0x1fac8, 0x1fac8),
    (0x1facd, 0x1fadc), (0x1fadf, 0x1faea), (0x1faef, 0x1faf8), (0x20000, 0x2fffd),
    (0x30000, 0x3fffd)
  ]

/-- Characters other than extending ones that take no column: the medial and final parts of
composed syllables, marks that belong to the character after them, and the caret of Devanagari. -/
def columnless : Ranges :=
  #[(0xd4e, 0xd4e), (0x1160, 0x11ff), (0xa8fa, 0xa8fa), (0xd7b0, 0xd7c6), (0xd7cb, 0xd7fb),
    (0x111c2, 0x111c3), (0x113d1, 0x113d1), (0x1193f, 0x1193f), (0x11941, 0x11941),
    (0x11a84, 0x11a89), (0x11d46, 0x11d46), (0x11f02, 0x11f02)]

/-- The sign that joins two Tifinagh consonants; it can be seen where it joins none. -/
def tifinaghJoiner : Char := '\u2d7f'

/-- **The width of a character by itself.** -/
def charWidth (c : Char) : Nat :=
  if c ≤ '\u00a0' || c == tifinaghJoiner then 1
  else if c == '\u17a4' then 2
  else if c == '\u17d8' then 3
  else if extendsGrapheme c || isIn columnless c then 0
  else if isIn wide c then 2
  else 1

/-! ### Letters that combine -/

/-- The forms of the letter lam. -/
def lams : Ranges :=
  #[(0x644, 0x644), (0x6b5, 0x6b8), (0x76a, 0x76a), (0x8a6, 0x8a6), (0x8c7, 0x8c7)]

/-- The forms of the letter alef. -/
def alefs : Ranges :=
  #[(0x622, 0x623), (0x625, 0x625), (0x627, 0x627), (0x671, 0x673), (0x675, 0x675),
    (0x773, 0x774), (0x870, 0x882)]

/-- The extending characters that take space of their own in a line of writing. -/
def spacing : Ranges :=
  #[
    (0x9be, 0x9be), (0x9d7, 0x9d7), (0xb3e, 0xb3e), (0xb57, 0xb57), (0xbbe, 0xbbe),
    (0xbd7, 0xbd7), (0xcc0, 0xcc0), (0xcc2, 0xcc2), (0xcc7, 0xcc8), (0xcca, 0xccb),
    (0xcd5, 0xcd6), (0xd3e, 0xd3e), (0xd57, 0xd57), (0xdcf, 0xdcf), (0xddf, 0xddf),
    (0x1715, 0x1715), (0x1734, 0x1734), (0x1b35, 0x1b35), (0x1b3b, 0x1b3b), (0x1b3d, 0x1b3d),
    (0x1b43, 0x1b44), (0x1baa, 0x1baa), (0x1bf2, 0x1bf3), (0x302e, 0x302f), (0xa953, 0xa953),
    (0xa9c0, 0xa9c0), (0x111c0, 0x111c0), (0x11235, 0x11235), (0x1133e, 0x1133e),
    (0x1134d, 0x1134d), (0x11357, 0x11357), (0x113b8, 0x113b8), (0x113c2, 0x113c2),
    (0x113c5, 0x113c5), (0x113c7, 0x113c9), (0x113cf, 0x113cf), (0x114b0, 0x114b0),
    (0x114bd, 0x114bd), (0x115af, 0x115af), (0x116b6, 0x116b6), (0x11930, 0x11930),
    (0x1193d, 0x1193d), (0x11f41, 0x11f41), (0x16ff0, 0x16ff1), (0x1d165, 0x1d166),
    (0x1d16d, 0x1d172)
  ]

/-- Whether a mark may stand between a lam and an alef. -/
def isTransparent (c : Char) : Bool :=
  extendsGrapheme c && !isIn spacing c && c != tifinaghJoiner

/-- The sign after which a Khmer consonant is written below the line. -/
def coeng : Char := '\u17d2'

/-- The Khmer letters that are written below the line after a coeng. -/
def subscripts : Ranges :=
  #[(0x1780, 0x1782), (0x1784, 0x1787), (0x1789, 0x178c), (0x178e, 0x1793), (0x1795, 0x1798),
    (0x179b, 0x179d), (0x17a0, 0x17a0), (0x17a2, 0x17a2), (0x17a7, 0x17a7), (0x17ab, 0x17ac),
    (0x17af, 0x17af)]

/-- The Tifinagh consonants. -/
def tifinaghConsonants : Ranges :=
  #[(0x2d31, 0x2d65), (0x2d6f, 0x2d6f)]

/-- The Lisu tone letters that a second one may follow. -/
def firstTones : Ranges :=
  #[(0xa4f8, 0xa4fb)]

/-- The Lisu tone letters that may follow another one. -/
def secondTones : Ranges :=
  #[(0xa4fc, 0xa4fd)]

/-- The Kirat Rai vowel `aa`. -/
def vowelAa : Char := Char.ofNat 0x16d63

/-- The Kirat Rai vowel `e`. -/
def vowelE : Char := Char.ofNat 0x16d67

/-- The Kirat Rai vowel `ai`, which is `e` twice. -/
def vowelAi : Char := Char.ofNat 0x16d68

/-- The Kirat Rai vowel `o`, which is `aa` and `e`. -/
def vowelO : Char := Char.ofNat 0x16d69

/-- The skin tones. -/
def tones : Ranges :=
  #[(0x1f3fb, 0x1f3ff)]

/-- Persons and hands, which a skin tone may follow. -/
def toned : Ranges :=
  #[
    (0x261d, 0x261d), (0x26f9, 0x26f9), (0x270a, 0x270d), (0x1f385, 0x1f385), (0x1f3c2, 0x1f3c4),
    (0x1f3c7, 0x1f3c7), (0x1f3ca, 0x1f3cc), (0x1f442, 0x1f443), (0x1f446, 0x1f450),
    (0x1f466, 0x1f478), (0x1f47c, 0x1f47c), (0x1f481, 0x1f483), (0x1f485, 0x1f487),
    (0x1f48f, 0x1f48f), (0x1f491, 0x1f491), (0x1f4aa, 0x1f4aa), (0x1f574, 0x1f575),
    (0x1f57a, 0x1f57a), (0x1f590, 0x1f590), (0x1f595, 0x1f596), (0x1f645, 0x1f647),
    (0x1f64b, 0x1f64f), (0x1f6a3, 0x1f6a3), (0x1f6b4, 0x1f6b6), (0x1f6c0, 0x1f6c0),
    (0x1f6cc, 0x1f6cc), (0x1f90c, 0x1f90c), (0x1f90f, 0x1f90f), (0x1f918, 0x1f91f),
    (0x1f926, 0x1f926), (0x1f930, 0x1f939), (0x1f93c, 0x1f93e), (0x1f977, 0x1f977),
    (0x1f9b5, 0x1f9b6), (0x1f9b8, 0x1f9b9), (0x1f9bb, 0x1f9bb), (0x1f9cd, 0x1f9cf),
    (0x1f9d1, 0x1f9dd), (0x1fac3, 0x1fac5), (0x1faf0, 0x1faf8)
  ]

/-! ### Characters in a text -/

/-- What follows a character, as far as the width of the character depends on it. -/
inductive Follower where
  /-- Nothing that it combines with. -/
  | other
  /-- An alef, with or without marks that belong to what is in front of it. -/
  | alef
  /-- A Khmer letter that can be written below the line. -/
  | subscript
  /-- A Tifinagh consonant. -/
  | consonant
  /-- A Tifinagh consonant that has its joiner in front. -/
  | joinedConsonant
  /-- The second tone letter of a Lisu pair. -/
  | secondTone
  /-- The Kirat Rai vowel `e`. -/
  | kiratE
  /-- The Kirat Rai vowel `ai`, as one character or as two. -/
  | kiratAi
  /-- A skin tone. -/
  | tone
deriving DecidableEq, Repr, Inhabited

/-- What a character is to the one in front of it. -/
def Follower.of (c : Char) : Follower :=
  if c ≤ '\u00a0' then .other
  else if isIn alefs c then .alef
  else if isIn subscripts c then .subscript
  else if isIn tifinaghConsonants c then .consonant
  else if isIn secondTones c then .secondTone
  else if c == vowelE then .kiratE
  else if c == vowelAi then .kiratAi
  else if isIn tones c then .tone
  else .other

/-- The width of a character that does not combine with what follows it, and what it is to the
character in front of it. -/
def uncombined (c : Char) : Int × Follower :=
  (charWidth c, .of c)

/-- **The width of a character in front of a follower**, and what the two are to the character in
front of them. A sign that takes no column although its parts took some gives back what was
counted too much. -/
def widthBefore (c : Char) : Follower → Int × Follower
  | .other => uncombined c
  | .alef =>
    if isIn lams c then (0, .other)
    else if isTransparent c then (0, .alef)
    else uncombined c
  | .subscript => if c == coeng then (-1, .other) else uncombined c
  | .consonant => if c == tifinaghJoiner then (1, .joinedConsonant) else uncombined c
  | .joinedConsonant => if isIn tifinaghConsonants c then (-1, .other) else uncombined c
  | .secondTone => if isIn firstTones c then (0, .other) else uncombined c
  | .kiratE =>
    if c == vowelAa || c == vowelO then (0, .other)
    else if c == vowelE then (0, .kiratAi)
    else if c == vowelAi then (1, .kiratE)
    else uncombined c
  | .kiratAi => if c == vowelAa then (0, .other) else uncombined c
  | .tone => if isIn toned c then (0, .other) else uncombined c

/-- The width of a text, and what the text is to a character in front of it. -/
def widthAndFront (text : List Char) : Int × Follower :=
  text.foldr (fun c (w, follower) =>
    let (more, front) := widthBefore c follower
    (w + more, front)) (0, .other)

/-- **The width of a text.** -/
def width (text : List Char) : Nat :=
  (widthAndFront text).1.toNat

end CommandLog.Text
