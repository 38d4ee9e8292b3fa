import MineRider.Model.Minecraft.Physics

/-! # The generated collision tables

The tables of `collision_data.rs`, shortened where they repeat themselves: a table is written in phrases, and a
phrase goes on with what stands some places further back, or with numbers that rise from there. The coordinates of
the boxes are multiples of 1/32 in the source and are given here as those multiples. A box that occurs more than
once is written once, and the table of boxes refers to it by its place in `distinctBoxes`.
-/

namespace MineRider.Model.Minecraft.CollisionData

/-- Some entries, and `count` more, each by `rise` above the entry `back` places before it. -/
structure Phrase where
  entries : List ℕ
  back : ℕ
  rise : ℕ
  count : ℕ

/-- The table that phrases stand for, after the entries `seen`, the last one first. -/
def expand : List ℕ → List Phrase → List ℕ
  | _, [] => []
  | seen, phrase :: rest =>
    let seen := phrase.entries.reverse ++ seen
    let pattern := (seen.take phrase.back).reverse
    let repeated := (List.range phrase.count).map fun i =>
      pattern.getD (i % phrase.back) 0 + phrase.rise * (i / phrase.back + 1)
    phrase.entries ++ (repeated ++ expand (repeated.reverse ++ seen) rest)

open Phrase (mk)

section Boxes

/-- The coordinates of a box, two digits each and counted from -8. -/
def boxOf (digits : ℕ) : Aabb ℤ :=
  let coordinate (place : ℕ) : ℤ := (digits / 100 ^ place % 100 : ℕ) - 8
  ⟨coordinate 5, coordinate 4, coordinate 3, coordinate 2, coordinate 1, coordinate 0⟩

def distinctBoxDigits : List ℕ := [
  122218163420, 322218363420, 122228163430, 322228363430, 160816325618, 160830325632, 121412361616, 121432361636,
  123608364012, 123636364040, 83422343826, 143422403826, 83422403826, 223422264026, 82012222816, 262012402816,
  82032222836, 262032402836, 123008404012, 123036404040, 182212203416, 282212303416, 182232203436, 282232303436,
  220822262026, 222422263626, 181412302616, 141812263016, 221812343016, 181432302636, 141832263036, 221832343036,
  202612284016, 202632284036, 201616323020, 201628323032, 161616323020, 161628323032, 221222263626, 200812283416,
  200832283436, 161408324012, 161436324040, 121208404012, 121236404040, 80808124012, 120808164012, 360808404012,
  360812404016, 220822264026, 360832404036, 80836124040, 120836164040, 360836404040, 320808404012, 320836404040,
  260822404026, 80822264026, 220822404026, 80822404026, 82121402727, 180820302026, 141408342614, 141434342640,
  162814404020, 162828404034, 141408402614, 141434402640, 161608323214, 161634323240, 80808142614, 340808402614,
  80834142640, 340834402640, 141408343414, 141434343440, 130813194019, 210821274027, 80808404014, 80834404040,
  162808403016, 162832403040, 202220282628, 202420282828, 83620404028, 162420323028, 201608282416, 321620402428,
  201632282440, 283220404028, 81620322428, 82020322828, 162020402828, 82020402828, 162020482828, 2020322828,
  202210283218, 102220183228, 302220383228, 202230283238, 200820282028, 322820404028, 202808344016, 202832344040,
  281620323028, 122620164028, 322620364028, 282420404028, 141408343416, 141432343440, 200820283028, 161820324028,
  201620284028, 120820163428, 320820363428, 80808124016, 80832124040, 200820284028, 201620284828, 80808404016,
  80832404040, 200020284028, 200820285628, 180808305616, 280820405628, 180832305640, 80820285628, 200820405628,
  80820405628, 180820282030, 180818302028, 141408343418, 141430343440, 180808305618, 180830305640, 180618301430,
  203208404020, 203228404040, 121814163026, 321814363026, 121418162630, 321418362630, 121822163034, 321822363034,
  180818302030, 181818303030, 181810303222, 180818302230, 181018302430, 101818223230, 261818383230, 182018303430,
  181826303238, 202408404020, 202428404040, 140814263026, 141814264026, 140814264026, 200808285620, 320818405630,
  200828285640, 300818405630, 80818305630, 180818405630, 80818325630, 80818405630, 122008162822, 322008362822,
  122026162840, 322026362840, 141408343422, 141426343440, 220808264022, 220826264040, 322816403032, 141616341832,
  81416401632, 161616322032, 160816321432, 163416324032, 282816344032, 161616203032, 161616323032, 81616143232,
  341616403232, 161608323224, 82408244024, 242408404024, 160816322432, 81616243232, 241616403232, 161624323240,
  82424244040, 242424404040, 141608343224, 141624343240, 82408404024, 82424404040, 161410323226, 101416263232,
  221416383232, 161422323238, 201816284032, 81616124032, 361616404032, 161216323632, 120816363232, 81216323632,
  161216403632, 121616364032, 80808244024, 240808404024, 120812284028, 80824244040, 240824404040, 80808404024,
  80816404032, 80824404040, 160816325632, 140814322232, 220808264026, 220822264040, 161614321834, 143414344034,
  140814341634, 143214344034, 140814341834, 143014344034, 341414402634, 82814164034, 140814342034, 140614341834,
  81414402634, 140814342234, 142614344034, 81614243234, 241614403234, 140814342434, 81414143434, 341414403434,
  81414163434, 321414403434, 81414183434, 301414403434, 81414223434, 261414403434, 141414343434, 81414343434,
  141414403434, 81414403434, 140814343434, 141414344034, 100810304030, 140814344034, 200808285628, 200820285640,
  180808305630, 180818305640, 83612404036, 202008282832, 202016282840, 120812361636, 363012404036, 120812362036,
  120812362236, 161208323632, 160812323236, 161612324036, 161216323640, 361212404036, 80808324032, 100812384036,
  80808404032, 80816404040, 223408263834, 223414263840, 81408402634, 81414402640, 141408343434, 141414343440,
  100810381138, 100810381238, 100810382238, 340810382438, 300810382438, 260810382438, 220810382438, 180810382438,
  140810382438, 100810382438, 100810383638, 80810383638, 100810403638, 100810383838, 100810384038, 100808383638,
  100810383640, 82808163040, 80808401040, 223408263840, 203608284040, 80808401240, 83008403440, 212108272740,
  80808401440, 83408404040, 202008282840, 202016282848, 202000282832, 83208204040, 80808401640, 83008403840,
  83008124040, 142808204040, 81408342640, 80808402040, 80808402240, 82408204040, 82408244040, 242408404040,
  80808402440, 82408404040, 80808402640, 141408343440, 80808402840, 80808403240, 81608404040, 80808403440,
  81208124040, 80808403640, 80808403840, 220808264040, 80808144040, 340808404040, 80808164040, 320808404040,
  80808244040, 160808324040, 240808404040, 80808324040, 160808404040, 80808404040, 200808285640, 180808305640]

def distinctBoxes : List (Aabb ℤ) := distinctBoxDigits.map boxOf

def shapeBoxPlaces : List Phrase := [
  mk [341, 70, 71, 277, 62, 72, 73, 276, 63, 70, 72, 232, 66, 67, 71, 73, 314, 228, 273, 339, 272, 340, 325, 326, 119,
  260, 119, 307, 335, 91, 335, 95, 120, 259, 120, 308, 334, 92, 334, 94, 117, 309, 136, 137, 89, 121] 5 0 4, mk [310,
  112, 310, 118, 215, 197, 336, 211, 193, 215, 214, 192, 210, 197, 187, 211, 318, 193, 320, 196, 320, 318, 187, 320,
  196, 193, 320, 186, 320, 187, 217, 196, 217, 211, 186, 336, 214, 187, 214, 318, 187, 213, 196, 193, 320, 197, 320,
  197, 187, 320, 318, 193, 320, 193, 320, 192, 336, 319, 320, 318, 338, 318, 320, 319, 290, 292, 291, 295, 296, 330,
  332, 79, 333, 78, 79, 78, 333, 332, 84, 300, 301, 310, 315, 320, 324, 325, 329, 293, 128, 158, 160, 342, 124, 128,
  158, 254, 124, 128, 160, 255, 124, 128, 127, 126, 158, 160, 342, 126, 158, 254, 126, 160, 255, 126, 122, 329, 289,
  288, 287, 286, 285, 284, 283, 301, 79, 305, 304, 78, 333, 332, 59, 172, 173, 331, 56, 59, 172, 220, 56, 59, 173,
  221, 56, 59, 58, 57, 172, 173, 331, 57, 172, 220, 57, 173, 221, 57, 49, 60, 77, 303] 30 0 27, mk [128, 342, 280,
  321, 320, 218, 164, 4, 5, 164, 4, 5, 162, 162, 218, 125, 164, 4, 5] 4 0 5, mk [257, 162, 134, 162, 134] 15 0 16, mk
  [123, 164, 4, 5] 4 0 5, mk [256, 162, 133, 162, 133, 218, 123] 27 0 4, mk [] 5 0 7, mk [343, 162, 133, 134, 162,
  133, 134] 20 0 22, mk [] 55 0 54, mk [159, 165, 4, 5, 165, 4, 5, 163, 165, 165, 218, 125] 12 0 4, mk [125] 4 0 4, mk
  [257, 161, 165, 134, 165, 134] 17 0 18, mk [123] 17 0 4, mk [123] 4 0 4, mk [256, 161, 165, 133, 165] 102 0 4, mk []
  18 0 5, mk [] 36 0 4, mk [123, 125, 343, 161, 165, 133, 134, 165] 104 0 5, mk [] 22 0 21, mk [] 61 0 60, mk [] 167 0
  166, mk [] 587 0 27, mk [325, 281, 38, 115, 116, 46, 52, 54, 55, 48, 50, 176, 6, 7, 41, 42, 203, 204, 327, 179, 327,
  294, 96, 99, 97, 98, 146, 152, 149, 150] 8 102 4, mk [290] 545 0 483, mk [] 483 0 483, mk [144, 188, 191, 185, 190,
  189, 237, 195, 194, 236, 235, 261, 222, 202, 313, 102, 103, 180, 261, 175, 111, 229, 64, 65, 101, 315, 110, 181, 34,
  35, 104, 297, 80, 81, 174, 312, 18, 19, 262, 182, 86] 10 0 9, mk [88] 10 0 8, mk [90, 36, 37, 85] 22 0 9, mk [87] 10
  0 8, mk [59, 172, 173, 331, 56, 59, 172, 220, 56, 59, 173, 221, 56, 59, 58, 57, 172, 173, 331, 57, 172, 220, 57,
  173, 221, 57, 49] 27 0 405, mk [298, 128, 158, 160, 342, 124, 128, 158, 254, 124, 128, 160, 255, 124, 128, 127, 126,
  158, 160, 342, 126, 158, 254, 126, 160, 255, 126, 122] 27 0 216, mk [306, 93, 117, 253, 238, 74, 75, 239, 253, 74,
  75, 239, 250] 9 0 4, mk [250] 13 0 4, mk [238, 74, 239, 253, 74] 16 0 4, mk [239, 250, 74, 239, 253, 238, 75, 239,
  253] 30 0 4, mk [75, 239, 250] 28 0 4, mk [239, 253, 239, 250, 238, 239, 250] 38 0 4, mk [75, 253, 74, 75] 54 0 4,
  mk [250, 74, 75, 253, 238, 74, 253, 74, 250, 238, 74, 250, 74, 253, 238, 75, 253, 75, 250, 238, 75, 250, 75, 253,
  238, 253, 250, 238, 250, 249, 74, 75, 223, 323, 239, 223, 249, 74, 75, 323, 239, 249, 74, 223, 278] 11 0 4, mk [278,
  239, 249, 75, 223, 279, 239, 223, 249, 75, 279, 239, 249, 223, 248, 223, 249, 248, 247] 38 0 4, mk [223, 247, 74,
  75, 323, 247, 74, 223, 278, 223, 247, 74, 278, 247, 75, 223, 279, 223, 247, 75, 279, 247, 223, 251, 247, 246, 135,
  231, 219, 282, 271, 100, 230, 263, 264, 145, 76] 1 0 11, mk [218, 164, 4, 5, 164, 4, 5, 162, 162, 218, 125, 164, 4,
  5] 4 0 5, mk [257, 162, 134, 162, 134] 15 0 16, mk [123, 164, 4, 5] 4 0 5, mk [256, 162, 133, 162] 1045 0 4, mk []
  12 0 4, mk [] 5 0 6, mk [343, 162, 133, 134, 162] 1043 0 5, mk [] 20 0 19, mk [] 55 0 54, mk [] 1116 0 4, mk [165,
  4, 5, 163, 165, 165, 218] 1128 0 5, mk [] 1127 0 4, mk [125, 257, 161, 165, 134, 165, 134] 17 0 18, mk [123] 1162 0
  5, mk [] 4 0 4, mk [256, 161, 165, 133, 165] 102 0 4, mk [] 1180 0 19, mk [] 22 0 24, mk [] 61 0 60, mk [] 167 0
  167, mk [] 483 0 5795, mk [45, 51, 47, 53, 258, 8, 9, 113, 114, 267, 0, 2, 1, 3, 39, 40, 209] 7 20 4, mk [265, 138,
  139, 168, 169, 268, 142, 143, 166, 167, 207, 27, 30, 15, 17, 208, 28, 31, 14, 16, 266, 140, 141, 105, 106, 206, 26,
  29, 32, 33, 301, 205, 322, 216, 337, 177, 151, 13, 177, 151, 274, 177, 151, 275, 177, 151, 10, 177, 151, 11, 177,
  151, 299, 177, 151, 12, 148, 83, 147, 82, 316, 128, 158, 160, 342, 124, 128, 158, 254, 124, 128, 160, 255, 124, 128,
  127, 126, 158, 160, 342, 126, 158, 254, 126, 160, 255, 126, 122] 27 0 27, mk [301, 328, 43, 44, 269, 293] 1108 0
  966, mk [] 483 0 483, mk [24, 61, 129, 130, 289, 25, 171, 244, 170, 245, 233, 234, 132, 242, 131, 243, 226, 227,
  109, 240, 108, 241, 224, 225, 69, 183, 68, 184, 178, 179] 996 0 966, mk [] 483 0 483, mk [320, 320, 157, 157, 157,
  157, 155, 155, 156, 156] 8 55 4, mk [] 4 40 4, mk [] 4 18 4, mk [117, 317, 153, 154, 107, 311, 311, 302, 329] 997 0
  966, mk [] 483 0 966, mk [294, 188, 298] 1 0 0]

/-- `SHAPE_BOXES`; no reference is out of range, so the full cube is never taken by default. -/
def shapeBoxes : List (Aabb ℤ) :=
  (expand [] shapeBoxPlaces).map fun place => distinctBoxes.getD place ⟨0, 0, 0, 32, 32, 32⟩

end Boxes

section Ranges

def shapeRangeCounts : List Phrase := [
  mk [0, 1, 4, 4, 5, 4, 1] 1 0 5, mk [] 6 1 6, mk [2, 2, 5] 16 1 4, mk [] 9 1 4, mk [2, 3, 3] 10 0 13, mk [2, 2, 2] 42
  0 6, mk [] 1 0 18, mk [] 25 1 6, mk [1, 1, 3, 1, 2, 1] 37 0 19, mk [] 31 0 19, mk [] 50 0 22, mk [3, 3, 1, 1, 2, 4,
  4] 140 0 4, mk [] 6 0 11, mk [3, 5, 5, 1] 12 1 5, mk [1, 3, 3] 18 0 19, mk [] 53 0 4, mk [1] 6 1 6, mk [] 6 0 12, mk
  [4] 42 1 6, mk [] 72 1 6, mk [] 18 0 17, mk [] 54 0 54, mk [] 182 0 17, mk [2, 15] 239 0 17, mk [] 196 0 160, mk []
  161 0 162, mk [] 1 0 10, mk [7, 7, 1, 13] 366 9 4, mk [] 376 0 16, mk [] 16 0 240, mk [] 145 0 146, mk [1, 1] 9 3 5,
  mk [] 15 2 5, mk [4] 490 0 4, mk [2] 8 0 8, mk [] 33 1 5, mk [1, 2, 1] 6 1 5, mk [3] 1089 0 4, mk [] 59 0 6, mk [4,
  2, 3] 71 0 4, mk [] 4 0 5, mk [] 1097 0 25, mk [] 831 0 324, mk [] 161 0 1770, mk [7] 18 3 5, mk [5, 5, 5, 2] 61 0
  4, mk [] 1 0 6, mk [2, 2, 1] 14 1 4, mk [2, 2, 1, 1, 3, 1, 2, 1] 26 0 5, mk [] 16 0 15, mk [5] 45 0 4, mk [] 701 0
  481, mk [1, 1] 493 0 5, mk [] 1 0 22, mk [] 512 0 486, mk [] 1 0 18, mk [5] 510 0 488, mk [] 671 0 163]

/-- Each range starts where the one before it ends. -/
def rangesFrom : ℕ → List ℕ → List (ℕ × ℕ)
  | _, [] => []
  | start, count :: counts => (start, count) :: rangesFrom (start + count) counts

/-- `SHAPE_RANGES`, as starts and counts. -/
def shapeRanges : List (ℕ × ℕ) := rangesFrom 0 (expand [] shapeRangeCounts)

end Ranges

section States

def stateShapePhrases : List Phrase := [
  mk [0, 1] 1 0 27, mk [0] 1 0 55, mk [] 57 0 33, mk [] 89 1 56, mk [] 1 0 1557, mk [2, 3, 2, 3, 3, 2, 3, 2] 8 2 8, mk
  [] 16 0 240, mk [0] 1 0 47, mk [6] 1 1 5, mk [] 12 1 6, mk [] 19 0 19, mk [12, 12] 2 1 22, mk [] 71 1 16, mk [] 99 0
  28, mk [] 667 0 264, mk [] 411 0 48, mk [] 1 0 470, mk [] 13 1 13, mk [] 863 12 24, mk [] 2 1 18, mk [36, 36, 25,
  25] 4 2 4, mk [45, 45] 10 5 8, mk [46, 46, 26, 26, 35, 35] 4 2 4, mk [47, 47] 10 5 8, mk [] 44 6 6, mk [48, 48] 621
  49 4, mk [48, 48] 12 2 4, mk [48, 48] 10 3 4, mk [] 635 0 518, mk [] 1 0 778, mk [] 4 1 4, mk [] 12 0 8, mk [] 8 53
  8, mk [] 16 1 8, mk [] 348 0 320, mk [] 350 54 4, mk [] 326 55 4, mk [] 8 0 8, mk [] 2 1 4, mk [54, 54] 10 1 6, mk
  [] 8 0 4, mk [] 32 1 18, mk [] 42 0 4, mk [] 26 0 4, mk [] 8 0 6, mk [] 24 3 6, mk [61, 61] 92 0 20, mk [] 442 24 4,
  mk [] 2 1 38, mk [36, 36, 25, 25] 4 2 4, mk [45, 45] 10 5 8, mk [46, 46, 26, 26, 35, 35] 4 2 4, mk [47, 47] 10 5 8,
  mk [] 1200 0 680, mk [] 1 0 168, mk [] 4 62 4, mk [] 4 1 4, mk [] 8 0 88, mk [] 1142 0 90, mk [] 84 0 20, mk [] 4 1
  4, mk [] 245 0 35, mk [64] 1 1 6, mk [1, 1] 25 71 16, mk [] 61 0 17, mk [1, 1, 72, 73] 43 5 4, mk [] 4 2 26, mk [1,
  88] 43 1 7, mk [] 48 0 6, mk [] 132 0 6, mk [] 1 0 4, mk [] 101 25 7, mk [] 417 96 64, mk [] 146 1 16, mk [] 231 97
  12, mk [] 12 2 8, mk [] 12 1 8, mk [] 8 1 8, mk [] 16 0 4, mk [] 24 1 8, mk [] 4 3 4, mk [] 16 0 4, mk [] 24 1 8, mk
  [] 64 0 576, mk [] 1200 1 127, mk [] 1 0 77, mk [] 988 31 32, mk [] 1147 64 6, mk [] 38 19 32, mk [] 1139 0 37, mk
  [] 1 0 279, mk [138, 138] 4 0 14, mk [139, 139] 4 0 12, mk [24, 24] 2 1 40, mk [36, 36, 25, 25] 4 2 4, mk [45, 45]
  10 5 8, mk [46, 46, 26, 26, 35, 35] 4 2 4, mk [47, 47] 10 5 8, mk [] 80 0 160, mk [1, 1, 140, 1, 1] 85 0 80, mk []
  42 98 4, mk [1, 1, 143, 144, 145, 143, 144, 145, 0, 146, 147, 0] 693 12 4, mk [] 12 5 4, mk [] 6 3 306, mk [1, 1]
  1035 182 32, mk [] 444 0 80, mk [] 803 0 4, mk [320] 812 321 8, mk [] 8 1 8, mk [0] 13 2 8, mk [1, 325, 1, 1] 157 28
  6, mk [] 1 1 6, mk [] 655 0 82, mk [] 115 16 8, mk [] 1079 0 144, mk [] 805 0 81, mk [] 1050 0 162, mk [] 1 0 11, mk
  [] 654 38 6, mk [0, 342, 343, 0] 972 196 314, mk [] 6 3 6, mk [0, 503, 504, 0] 324 161 315, mk [] 1 0 28, mk [] 1075
  0 144, mk [] 1 0 112, mk [] 32 662 32, mk [] 2 1 8, mk [] 40 0 200, mk [] 40 5 42, mk [673, 673] 4 0 8, mk [48, 48]
  2 1 4, mk [48, 48, 50, 50, 49, 49, 48, 48] 12 2 4, mk [48, 48] 10 3 4, mk [] 348 0 32, mk [] 16 96 16, mk [] 48 674
  32, mk [1, 1] 691 19 5, mk [] 5 0 5, mk [] 65 1 5, mk [24, 24] 2 1 40, mk [36, 36, 25, 25] 4 2 4, mk [45, 45] 10 5
  8, mk [46, 46, 26, 26, 35, 35] 4 2 4, mk [47, 47] 10 5 8, mk [] 169 0 24, mk [] 197 1 28, mk [680, 681] 143 4 4, mk
  [] 4 2 506, mk [] 644 0 80, mk [] 80 0 480, mk [1, 1, 1] 1127 0 24, mk [] 1 0 8, mk [] 1139 97 8, mk [] 8 0 4, mk []
  12 2 8, mk [] 12 1 8, mk [] 8 1 8, mk [] 16 0 4, mk [] 24 1 8, mk [] 4 3 4, mk [] 16 0 4, mk [] 24 1 8, mk [1, 1, 1]
  342 0 240, mk [] 42 98 4, mk [1, 1] 6 0 12, mk [] 1 0 4, mk [] 345 936 16, mk [] 380 0 35, mk [] 1 0 300, mk [] 616
  0 83, mk [] 456 0 18, mk [] 6 0 132, mk [] 1 0 4, mk [0, 0, 138, 138] 4 0 14, mk [139, 139] 4 0 14, mk [] 32 0 254,
  mk [937, 938, 937, 938] 4 2 284, mk [] 774 12 6, mk [] 584 54 4, mk [] 8 0 6, mk [] 2 1 4, mk [54, 54] 10 1 6, mk []
  8 0 4, mk [] 32 1 18, mk [] 42 0 4, mk [] 26 0 4, mk [] 8 0 6, mk [] 64 0 512, mk [] 584 4 5, mk [] 587 6 4, mk [] 1
  1 61, mk [1] 1 0 9, mk [24, 24] 2 1 40, mk [36, 36, 25, 25] 4 2 4, mk [45, 45] 10 5 8, mk [46, 46, 26, 26, 35, 35] 4
  2 4, mk [47, 47] 10 5 8, mk [1, 0, 0, 1148, 1148, 0, 1149] 2 0 7, mk [] 1 0 5, mk [53, 0] 111 0 10, mk [] 1 0 24, mk
  [] 35 0 35, mk [] 1 0 176, mk [] 253 0 6, mk [] 1 0 21, mk [1] 519 1096 5, mk [] 13 1151 8, mk [1152, 1152] 53 0 37,
  mk [] 1 0 93, mk [] 485 1112 8, mk [1, 1157, 1157, 0] 553 22 12, mk [661] 29 0 4, mk [] 548 0 80, mk [] 80 0 1040,
  mk [] 42 98 4, mk [1, 1] 6 0 72, mk [1170, 1171, 1172, 1170, 1171, 1172, 0, 1173, 1174, 0, 1173] 1 1 4, mk [] 5 2 5,
  mk [] 6 3 310, mk [0, 1334, 1335, 0] 324 161 320, mk [0, 1495, 1496, 0] 324 161 320, mk [0, 1656, 1657, 0] 324 161
  320, mk [0, 1817, 1818, 0] 324 161 320, mk [0, 1978, 1979, 0] 324 161 320, mk [0, 2139, 2140, 0] 324 161 320, mk [0,
  2300, 2301, 0] 324 161 320, mk [0, 2461, 2462, 0] 324 161 320, mk [0, 2622, 2623, 0] 324 161 320, mk [0, 2783, 2784,
  0] 324 161 320, mk [0, 2944, 2945, 0] 324 161 320, mk [0, 3105, 3106, 0] 324 161 315, mk [] 1 0 31, mk [1] 1 0 33,
  mk [3264, 3264, 3265] 78 8 6, mk [] 2 1 5, mk [] 1 0 14, mk [1] 5 1 4, mk [] 4 1 12, mk [] 8 1 6, mk [] 2 1 8, mk []
  4 1 8, mk [3284, 3284] 61 13 20, mk [] 1 0 48, mk [0, 0, 0, 0] 154 0 13, mk [0, 1] 17 0 19, mk [] 1 0 53, mk [1, 1]
  4 141 4, mk [] 6 0 8, mk [] 18 0 4, mk [3286, 3287] 243 19 4, mk [] 4 2 58, mk [] 173 97 8, mk [] 8 0 4, mk [] 12 2
  8, mk [] 12 1 8, mk [] 8 1 8, mk [] 16 0 4, mk [] 24 1 8, mk [] 4 3 4, mk [] 16 0 4, mk [] 24 1 8, mk [] 64 0 64, mk
  [0, 0, 138, 138] 4 0 14, mk [139, 139] 4 0 14, mk [] 32 0 30, mk [] 276 24 4, mk [] 2 1 38, mk [36, 36, 25, 25] 4 2
  4, mk [45, 45] 10 5 8, mk [46, 46, 26, 26, 35, 35] 4 2 4, mk [47, 47] 10 5 8, mk [] 80 0 80, mk [] 482 0 48, mk []
  92 12 6, mk [] 476 54 4, mk [] 8 0 6, mk [] 2 1 4, mk [54, 54] 10 1 6, mk [] 8 0 4, mk [] 32 1 18, mk [] 42 0 4, mk
  [] 26 0 4, mk [] 8 0 6, mk [] 64 0 64, mk [] 665 0 55, mk [] 690 0 27, mk [] 1 0 14, mk [] 9 3317 9, mk [] 89 1 64,
  mk [3319] 10 0 9, mk [] 4 660 4, mk [1, 1] 441 0 80, mk [] 1175 60 6, mk [0, 3323, 3324, 0] 1199 71 21, mk [] 6 3
  293, mk [] 1191 0 6, mk [] 1 0 4, mk [] 10 0 6, mk [] 420 0 80, mk [] 102 3 6, mk [0, 3484, 3485, 0] 420 161 314, mk
  [] 405 0 81, mk [] 491 0 6, mk [] 1042 0 26, mk [] 119 3 6, mk [0, 3645, 3646, 0] 437 161 314, mk [1, 1, 1] 331 3803
  4, mk [] 4 1 12, mk [] 16 0 256, mk [] 625 3807 26, mk [] 1 0 8, mk [1, 1] 747 3784 42, mk [] 2 1 6, mk [1] 716 0 6,
  mk [] 802 0 80, mk [] 452 32 6, mk [0, 3835, 3836, 0] 770 190 314, mk [] 411 0 87, mk [] 93 3 6, mk [0, 3996, 3997,
  0] 411 161 314, mk [1] 412 0 87, mk [] 94 3 6, mk [0, 4157, 4158, 0] 412 161 314, mk [1, 1, 1, 0, 4315] 1 0 479, mk
  [1, 0] 1 0 127, mk [1] 611 1 9, mk [] 28 1 18, mk [] 1045 0 80, mk [] 80 0 240, mk [] 42 98 4, mk [1, 1] 6 0 18, mk
  [] 352 0 352, mk [] 68 12 6, mk [55, 55] 8 0 8, mk [] 2 1 4, mk [54, 54] 10 1 6, mk [] 8 0 4, mk [] 32 1 18, mk []
  42 0 4, mk [] 26 0 4, mk [] 8 0 6, mk [] 64 0 448, mk [] 66 43 6, mk [] 74 43 6, mk [] 12 2 8, mk [] 12 1 8, mk [] 8
  1 8, mk [] 16 0 4, mk [] 24 1 8, mk [] 4 3 4, mk [] 16 0 4, mk [] 24 1 8, mk [] 64 0 448, mk [1] 1 0 47, mk [] 112
  984 12, mk [] 4 1 8, mk [] 1 0 4, mk [4317] 1 1 19, mk [1, 0] 1 0 54, mk [4337, 4337, 936] 19 0 16, mk [1] 704 4283
  6, mk [0, 0] 8 0 24, mk [] 1 0 26, mk [1] 30 1 5, mk [24, 24] 2 1 40, mk [36, 36, 25, 25] 4 2 4, mk [45, 45] 10 5 8,
  mk [46, 46, 26, 26, 35, 35] 4 2 4, mk [47, 47] 10 5 8, mk [] 42 98 4, mk [1, 1, 4342, 4343, 4344, 4342, 4343, 4344,
  0, 4345, 4346, 0] 241 13 5, mk [] 247 16 6, mk [] 6 3 303, mk [] 411 0 87, mk [] 93 3 6, mk [0, 4506, 4507, 0] 411
  161 314, mk [] 411 0 87, mk [] 93 3 6, mk [0, 4667, 4668, 0] 411 161 314, mk [] 411 0 87, mk [] 93 3 6, mk [0, 4828,
  4829, 0] 411 161 314, mk [1] 1 0 9, mk [661, 661] 11 0 9, mk [0, 1] 23 4985 10, mk [] 1 0 6, mk [] 39 0 10, mk [] 1
  0 82, mk [4987, 4987, 1] 84 4987 81, mk [0] 1 0 84, mk [661, 661] 1 0 0]

/-- `STATE_SHAPES` -/
def stateShapes : List ℕ := expand [] stateShapePhrases

end States

end MineRider.Model.Minecraft.CollisionData
