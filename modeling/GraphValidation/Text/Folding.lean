/-
**Case folding.**

Characters that differ in case alone fold to one representative, the lowest code point among them.
The table lists the code points that are not their own representative, in runs: the first and the
last code point, the step between them, and how far below its representative lies.  It is that of
edition 16 of the Unicode standard.

* `fold` — the representative of a character.
* `foldClass` — all characters with the same representative.
* `CharSet.folded`, `CharSet.foldedAscii` — a set with all characters that differ from one of it in
  case alone.
-/
import GraphValidation.Text.CharSet

namespace GraphValidation.Text

/-- Code points at a fixed distance above their representatives. -/
structure FoldRun where
  first : Nat
  last : Nat
  step : Nat
  distance : Nat

namespace FoldRun

/-- Whether a code point belongs to a run. -/
def covers (run : FoldRun) (n : Nat) : Bool :=
  run.first ≤ n && n ≤ run.last && (n - run.first) % run.step == 0

/-- The code points of a run. -/
def points (run : FoldRun) : List Nat :=
  (List.range ((run.last - run.first) / run.step + 1)).map fun index => run.first + index * run.step

end FoldRun

/-- The code points that are not their own representative. -/
def foldRuns : List FoldRun :=
  [⟨97, 122, 1, 32⟩, ⟨224, 246, 1, 32⟩, ⟨248, 254, 1, 32⟩, ⟨257, 303, 2, 1⟩, ⟨307, 311, 2, 1⟩,
   ⟨314, 328, 2, 1⟩, ⟨331, 375, 2, 1⟩, ⟨376, 376, 1, 121⟩, ⟨378, 382, 2, 1⟩, ⟨383, 383, 1, 300⟩,
   ⟨387, 389, 2, 1⟩, ⟨392, 392, 1, 1⟩, ⟨396, 396, 1, 1⟩, ⟨402, 402, 1, 1⟩, ⟨409, 409, 1, 1⟩,
   ⟨417, 421, 2, 1⟩, ⟨424, 424, 1, 1⟩, ⟨429, 429, 1, 1⟩, ⟨432, 432, 1, 1⟩, ⟨436, 438, 2, 1⟩,
   ⟨441, 441, 1, 1⟩, ⟨445, 445, 1, 1⟩, ⟨453, 453, 1, 1⟩, ⟨454, 454, 1, 2⟩, ⟨456, 456, 1, 1⟩,
   ⟨457, 457, 1, 2⟩, ⟨459, 459, 1, 1⟩, ⟨460, 460, 1, 2⟩, ⟨462, 476, 2, 1⟩, ⟨477, 477, 1, 79⟩,
   ⟨479, 495, 2, 1⟩, ⟨498, 498, 1, 1⟩, ⟨499, 499, 1, 2⟩, ⟨501, 501, 1, 1⟩, ⟨502, 502, 1, 97⟩,
   ⟨503, 503, 1, 56⟩, ⟨505, 543, 2, 1⟩, ⟨544, 544, 1, 130⟩, ⟨547, 563, 2, 1⟩, ⟨572, 572, 1, 1⟩,
   ⟨573, 573, 1, 163⟩, ⟨578, 578, 1, 1⟩, ⟨579, 579, 1, 195⟩, ⟨583, 591, 2, 1⟩, ⟨595, 595, 1, 210⟩,
   ⟨596, 596, 1, 206⟩, ⟨598, 599, 1, 205⟩, ⟨601, 601, 1, 202⟩, ⟨603, 603, 1, 203⟩,
   ⟨608, 608, 1, 205⟩, ⟨611, 611, 1, 207⟩, ⟨616, 616, 1, 209⟩, ⟨617, 617, 1, 211⟩,
   ⟨623, 623, 1, 211⟩, ⟨626, 626, 1, 213⟩, ⟨629, 629, 1, 214⟩, ⟨640, 640, 1, 218⟩,
   ⟨643, 643, 1, 218⟩, ⟨648, 648, 1, 218⟩, ⟨649, 649, 1, 69⟩, ⟨650, 651, 1, 217⟩,
   ⟨652, 652, 1, 71⟩, ⟨658, 658, 1, 219⟩, ⟨881, 883, 2, 1⟩, ⟨887, 887, 1, 1⟩, ⟨921, 921, 1, 84⟩,
   ⟨924, 924, 1, 743⟩, ⟨940, 940, 1, 38⟩, ⟨941, 943, 1, 37⟩, ⟨945, 952, 1, 32⟩, ⟨953, 953, 1, 116⟩,
   ⟨954, 955, 1, 32⟩, ⟨956, 956, 1, 775⟩, ⟨957, 961, 1, 32⟩, ⟨962, 962, 1, 31⟩, ⟨963, 971, 1, 32⟩,
   ⟨972, 972, 1, 64⟩, ⟨973, 974, 1, 63⟩, ⟨976, 976, 1, 62⟩, ⟨977, 977, 1, 57⟩, ⟨981, 981, 1, 47⟩,
   ⟨982, 982, 1, 54⟩, ⟨983, 983, 1, 8⟩, ⟨985, 1007, 2, 1⟩, ⟨1008, 1008, 1, 86⟩,
   ⟨1009, 1009, 1, 80⟩, ⟨1011, 1011, 1, 116⟩, ⟨1012, 1012, 1, 92⟩, ⟨1013, 1013, 1, 96⟩,
   ⟨1016, 1016, 1, 1⟩, ⟨1017, 1017, 1, 7⟩, ⟨1019, 1019, 1, 1⟩, ⟨1021, 1023, 1, 130⟩,
   ⟨1072, 1103, 1, 32⟩, ⟨1104, 1119, 1, 80⟩, ⟨1121, 1153, 2, 1⟩, ⟨1163, 1215, 2, 1⟩,
   ⟨1218, 1230, 2, 1⟩, ⟨1231, 1231, 1, 15⟩, ⟨1233, 1327, 2, 1⟩, ⟨1377, 1414, 1, 48⟩,
   ⟨5112, 5117, 1, 8⟩, ⟨7296, 7296, 1, 6254⟩, ⟨7297, 7297, 1, 6253⟩, ⟨7298, 7298, 1, 6244⟩,
   ⟨7299, 7300, 1, 6242⟩, ⟨7301, 7301, 1, 6243⟩, ⟨7302, 7302, 1, 6236⟩, ⟨7303, 7303, 1, 6181⟩,
   ⟨7306, 7306, 1, 1⟩, ⟨7312, 7354, 1, 3008⟩, ⟨7357, 7359, 1, 3008⟩, ⟨7681, 7829, 2, 1⟩,
   ⟨7835, 7835, 1, 59⟩, ⟨7838, 7838, 1, 7615⟩, ⟨7841, 7935, 2, 1⟩, ⟨7944, 7951, 1, 8⟩,
   ⟨7960, 7965, 1, 8⟩, ⟨7976, 7983, 1, 8⟩, ⟨7992, 7999, 1, 8⟩, ⟨8008, 8013, 1, 8⟩,
   ⟨8025, 8031, 2, 8⟩, ⟨8040, 8047, 1, 8⟩, ⟨8072, 8079, 1, 8⟩, ⟨8088, 8095, 1, 8⟩,
   ⟨8104, 8111, 1, 8⟩, ⟨8120, 8121, 1, 8⟩, ⟨8122, 8123, 1, 74⟩, ⟨8124, 8124, 1, 9⟩,
   ⟨8126, 8126, 1, 7289⟩, ⟨8136, 8139, 1, 86⟩, ⟨8140, 8140, 1, 9⟩, ⟨8147, 8147, 1, 7235⟩,
   ⟨8152, 8153, 1, 8⟩, ⟨8154, 8155, 1, 100⟩, ⟨8163, 8163, 1, 7219⟩, ⟨8168, 8169, 1, 8⟩,
   ⟨8170, 8171, 1, 112⟩, ⟨8172, 8172, 1, 7⟩, ⟨8184, 8185, 1, 128⟩, ⟨8186, 8187, 1, 126⟩,
   ⟨8188, 8188, 1, 9⟩, ⟨8486, 8486, 1, 7549⟩, ⟨8490, 8490, 1, 8415⟩, ⟨8491, 8491, 1, 8294⟩,
   ⟨8526, 8526, 1, 28⟩, ⟨8560, 8575, 1, 16⟩, ⟨8580, 8580, 1, 1⟩, ⟨9424, 9449, 1, 26⟩,
   ⟨11312, 11359, 1, 48⟩, ⟨11361, 11361, 1, 1⟩, ⟨11362, 11362, 1, 10743⟩, ⟨11363, 11363, 1, 3814⟩,
   ⟨11364, 11364, 1, 10727⟩, ⟨11365, 11365, 1, 10795⟩, ⟨11366, 11366, 1, 10792⟩,
   ⟨11368, 11372, 2, 1⟩, ⟨11373, 11373, 1, 10780⟩, ⟨11374, 11374, 1, 10749⟩,
   ⟨11375, 11375, 1, 10783⟩, ⟨11376, 11376, 1, 10782⟩, ⟨11379, 11379, 1, 1⟩, ⟨11382, 11382, 1, 1⟩,
   ⟨11390, 11391, 1, 10815⟩, ⟨11393, 11491, 2, 1⟩, ⟨11500, 11502, 2, 1⟩, ⟨11507, 11507, 1, 1⟩,
   ⟨11520, 11557, 1, 7264⟩, ⟨11559, 11559, 1, 7264⟩, ⟨11565, 11565, 1, 7264⟩, ⟨42561, 42569, 2, 1⟩,
   ⟨42570, 42570, 1, 35266⟩, ⟨42571, 42571, 1, 35267⟩, ⟨42573, 42605, 2, 1⟩, ⟨42625, 42651, 2, 1⟩,
   ⟨42787, 42799, 2, 1⟩, ⟨42803, 42863, 2, 1⟩, ⟨42874, 42876, 2, 1⟩, ⟨42877, 42877, 1, 35332⟩,
   ⟨42879, 42887, 2, 1⟩, ⟨42892, 42892, 1, 1⟩, ⟨42893, 42893, 1, 42280⟩, ⟨42897, 42899, 2, 1⟩,
   ⟨42903, 42921, 2, 1⟩, ⟨42922, 42922, 1, 42308⟩, ⟨42923, 42923, 1, 42319⟩,
   ⟨42924, 42924, 1, 42315⟩, ⟨42925, 42925, 1, 42305⟩, ⟨42926, 42926, 1, 42308⟩,
   ⟨42928, 42928, 1, 42258⟩, ⟨42929, 42929, 1, 42282⟩, ⟨42930, 42930, 1, 42261⟩,
   ⟨42933, 42947, 2, 1⟩, ⟨42948, 42948, 1, 48⟩, ⟨42949, 42949, 1, 42307⟩, ⟨42950, 42950, 1, 35384⟩,
   ⟨42952, 42954, 2, 1⟩, ⟨42955, 42955, 1, 42343⟩, ⟨42957, 42957, 1, 1⟩, ⟨42961, 42961, 1, 1⟩,
   ⟨42967, 42971, 2, 1⟩, ⟨42972, 42972, 1, 42561⟩, ⟨42998, 42998, 1, 1⟩, ⟨43859, 43859, 1, 928⟩,
   ⟨43888, 43967, 1, 38864⟩, ⟨64262, 64262, 1, 1⟩, ⟨65345, 65370, 1, 32⟩, ⟨66600, 66639, 1, 40⟩,
   ⟨66776, 66811, 1, 40⟩, ⟨66967, 66977, 1, 39⟩, ⟨66979, 66993, 1, 39⟩, ⟨66995, 67001, 1, 39⟩,
   ⟨67003, 67004, 1, 39⟩, ⟨68800, 68850, 1, 64⟩, ⟨68976, 68997, 1, 32⟩, ⟨71872, 71903, 1, 32⟩,
   ⟨93792, 93823, 1, 32⟩, ⟨125218, 125251, 1, 34⟩]

/-- The representative of a code point. -/
def fold (n : Nat) : Nat :=
  match foldRuns.find? (·.covers n) with
  | some run => n - run.distance
  | none => n

/-- The code points with the same representative as a character. -/
def foldClass (c : Char) : List Nat :=
  let representative := fold c.toNat
  representative :: foldRuns.filterMap fun run =>
    let point := representative + run.distance
    if run.covers point then some point else none

/-- The code points that are not their own representative, each with it. -/
def foldPairs : List (Nat × Nat) :=
  foldRuns.flatMap fun run => run.points.map fun n => (n - run.distance, n)

namespace CharSet

/-- The representatives of the characters of a set. -/
def representatives (a : CharSet) : CharSet :=
  a.union (.ofPoints (foldPairs.filterMap fun pair =>
    if a.containsPoint pair.2 then some pair.1 else none))

/-- A set with all characters that differ from one of it in case alone. -/
def folded (a : CharSet) : CharSet :=
  let known := a.representatives
  known.union (.ofPoints (foldPairs.filterMap fun pair =>
    if known.containsPoint pair.1 then some pair.2 else none))

/-- The same among the letters of ASCII. -/
def foldedAscii (a : CharSet) : CharSet :=
  let lower := a.intersection (range 97 122)
  let upper := a.intersection (range 65 90)
  .unionAll [a, ⟨lower.ranges.map fun run => ⟨run.first - 32, run.last - 32⟩⟩,
    ⟨upper.ranges.map fun run => ⟨run.first + 32, run.last + 32⟩⟩]

end CharSet

end GraphValidation.Text
