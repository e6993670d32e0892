import DesignCompiler.Text.Property

/-!
Scripts of writing, and characters that several scripts share.
-/
namespace DesignCompiler.Text

/-- A script by its names, its four letters first, and the characters that are its own. -/
structure Script where
  names : List String
  members : List (Nat × Nat)

def scripts : List Script :=
  [⟨["adlm", "adlam"], spans ["125184 76 4 10 4 2"]⟩,
    ⟨["aghb", "caucasianalbanian"], spans ["66864 52 11 1"]⟩,
    ⟨["ahom"], spans ["71424 27 2 15 4 23"]⟩,
    ⟨["arab", "arabic"],
      spans ["1536 5 1 6 1 14 1 3 1 32 1 10 11 26 1 108 1 34 80 48 240 34 5 75 1 29 62032 494 2 144 32 16",
        "112 5 1 135 3939 31 67 6 8 9 33 6 57088 4 1 27 1 2 1 1 2 1 1 10 1 4 1 1 1 1 6 1 4 1 1 1 1 1 1",
        "3 1 2 1 1 2 1 1 1 1 1 1 1 1 1 1 2 1 1 2 4 1 7 1 4 1 4 1 1 1 10 1 17 5 3 1 5 1 17 52 2"]⟩,
    ⟨["armi", "imperialaramaic"], spans ["67648 22 1 9"]⟩,
    ⟨["armn", "armenian"], spans ["1329 38 2 50 2 3 62851 5"]⟩,
    ⟨["avst", "avestan"], spans ["68352 54 3 7"]⟩,
    ⟨["bali", "balinese"], spans ["6912 77 1 50"]⟩,
    ⟨["bamu", "bamum"], spans ["42656 88 49416 569"]⟩,
    ⟨["bass", "bassavah"], spans ["92880 30 2 6"]⟩,
    ⟨["batk", "batak"], spans ["7104 52 8 4"]⟩,
    ⟨["beng", "bengali"], spans ["2432 4 1 8 2 2 2 22 1 7 1 1 3 4 2 9 2 2 2 4 8 1 4 2 1 5 2 25"]⟩,
    ⟨["berf", "beriaerfe"], spans ["93856 25 2 25"]⟩,
    ⟨["bhks", "bhaiksuki"], spans ["72704 9 1 45 1 14 10 29"]⟩,
    ⟨["bopo", "bopomofo"], spans ["746 2 11801 43 112 32"]⟩,
    ⟨["brah", "brahmi"], spans ["69632 78 4 36 9 1"]⟩,
    ⟨["brai", "braille"], spans ["10240 256"]⟩,
    ⟨["bugi", "buginese"], spans ["6656 28 2 2"]⟩,
    ⟨["buhd", "buhid"], spans ["5952 20"]⟩,
    ⟨["cakm", "chakma"], spans ["69888 53 1 18"]⟩,
    ⟨["cans", "canadianaboriginal"], spans ["5120 640 560 70 65978 16"]⟩,
    ⟨["cari", "carian"], spans ["66208 49"]⟩,
    ⟨["cham"], spans ["43520 55 9 14 2 10 2 4"]⟩,
    ⟨["cher", "cherokee"], spans ["5024 86 2 6 38770 80"]⟩,
    ⟨["chrs", "chorasmian"], spans ["69552 28"]⟩,
    ⟨["copt", "coptic", "qaac"], spans ["994 14 10384 116 5 7"]⟩,
    ⟨["cpmn", "cyprominoan"], spans ["77712 99"]⟩,
    ⟨["cprt", "cypriot"], spans ["67584 6 2 1 1 44 1 2 3 1 2 1"]⟩,
    ⟨["cyrl", "cyrillic"],
      spans ["1024 133 2 169 5968 11 160 1 76 1 4199 32 30784 96 22414 2 57856 62 33 1"]⟩,
    ⟨["deva", "devanagari"], spans ["2304 81 4 15 2 26 40800 32 29184 10"]⟩,
    ⟨["diak", "divesakuru"], spans ["71936 7 2 1 2 8 1 2 1 30 1 2 2 12 9 10"]⟩,
    ⟨["dogr", "dogra"], spans ["71680 60"]⟩,
    ⟨["dsrt", "deseret"], spans ["66560 80"]⟩,
    ⟨["dupl", "duployan"], spans ["113664 107 5 13 3 9 7 10 2 4"]⟩,
    ⟨["egyp", "egyptianhieroglyphs"], spans ["77824 1110 10 3995"]⟩,
    ⟨["elba", "elbasan"], spans ["66816 40"]⟩,
    ⟨["elym", "elymaic"], spans ["69600 23"]⟩,
    ⟨["ethi", "ethiopic"],
      spans ["4608 73 1 4 2 7 1 1 1 4 2 41 1 4 2 33 1 4 2 7 1 1 1 4 2 15 1 57 1 4 2 67 2 32 3 26 6630 23 9",
        "7 1 7 1 7 1 7 1 7 1 7 1 7 1 7 32034 6 2 6 2 6 9 7 1 7 81073 7 1 4 1 2 1 15"]⟩,
    ⟨["gara", "garay"], spans ["68928 38 3 29 8 2"]⟩,
    ⟨["geor", "georgian"], spans ["4256 38 1 1 5 1 2 43 1 4 2960 43 2 3 4160 38 1 1 5 1"]⟩,
    ⟨["glag", "glagolitic"], spans ["11264 96 111520 7 1 17 2 7 1 2 1 5"]⟩,
    ⟨["gong", "gunjalagondi"], spans ["73056 6 1 2 1 37 1 2 1 6 7 10"]⟩,
    ⟨["gonm", "masaramgondi"], spans ["72960 7 1 2 1 44 3 1 1 2 1 9 8 10"]⟩,
    ⟨["goth", "gothic"], spans ["66352 27"]⟩,
    ⟨["gran", "grantha"], spans ["70400 4 1 8 2 2 2 22 1 7 1 2 1 5 2 9 2 2 2 3 2 1 6 1 5 7 2 7 3 5"]⟩,
    ⟨["grek", "greek"],
      spans ["880 4 1 3 2 4 1 1 4 1 1 1 1 3 1 1 1 20 1 63 14 16 6438 5 50 5 4 5 84 1 320 22 2 6 2 38 2 6 2",
        "8 1 1 1 1 1 1 1 31 2 53 1 15 1 14 2 6 1 19 2 3 1 9 295 1 35390 1 21978 79 17 1 53343 70"]⟩,
    ⟨["gujr", "gujarati"], spans ["2689 3 1 9 1 3 1 22 1 7 1 2 1 5 2 10 1 3 1 3 2 1 15 4 2 12 7 7"]⟩,
    ⟨["gukh", "gurungkhema"], spans ["90368 58"]⟩,
    ⟨["guru", "gurmukhi"], spans ["2561 3 1 6 4 2 2 22 1 7 1 2 1 2 1 2 2 1 1 5 4 2 2 3 3 1 7 4 1 1 7 17"]⟩,
    ⟨["hang", "hangul"],
      spans ["4352 256 7726 2 257 94 113 31 65 31 30433 29 643 11172 12 23 4 49 10148 31 3 6 2 6 2 6 2 3"]⟩,
    ⟨["hani", "han"],
      spans ["11904 26 1 89 12 214 47 1 1 1 25 9 14 4 964 6592 64 20992 22784 366 2 106 29960 2 12 7 36873",
        "42720 32 4382 2 5774 2 7473 15 622 2466 542 1506 4939 5 8490"]⟩,
    ⟨["hano", "hanunoo"], spans ["5920 21"]⟩,
    ⟨["hatr", "hatran"], spans ["67808 19 1 2 5 5"]⟩,
    ⟨["hebr", "hebrew"], spans ["1425 55 8 27 4 6 62760 26 1 5 1 1 1 2 1 2 1 10"]⟩,
    ⟨["hira", "hiragana"], spans ["12353 86 6 3 98145 287 18 1 29 3 16557 1"]⟩,
    ⟨["hluw", "anatolianhieroglyphs"], spans ["82944 583"]⟩,
    ⟨["hmng", "pahawhhmong"], spans ["92928 70 10 10 1 7 1 21 5 19"]⟩,
    ⟨["hmnp", "nyiakengpuachuehmong"], spans ["123136 45 3 14 2 10 4 2"]⟩,
    ⟨["hung", "oldhungarian"], spans ["68736 51 13 51 7 6"]⟩,
    ⟨["ital", "olditalic"], spans ["66304 36 9 3"]⟩,
    ⟨["java", "javanese"], spans ["43392 78 2 10 4 2"]⟩,
    ⟨["kali", "kayahli"], spans ["43264 46 1 1"]⟩,
    ⟨["kana", "katakana"],
      spans ["12449 90 2 3 240 16 208 47 1 88 52238 10 1 45 45138 4 1 7 1 2 1 1 287 3 50 1 14 4"]⟩,
    ⟨["kawi"], spans ["73472 17 1 41 3 29"]⟩,
    ⟨["khar", "kharoshthi"], spans ["68096 4 1 2 5 8 1 3 1 29 2 3 4 10 7 9"]⟩,
    ⟨["khmr", "khmer"], spans ["6016 94 2 10 6 10 486 32"]⟩,
    ⟨["khoj", "khojki"], spans ["70144 18 1 47"]⟩,
    ⟨["kits", "khitansmallscript"], spans ["94180 1 6939 470 41 1"]⟩,
    ⟨["knda", "kannada"], spans ["3200 13 1 3 1 23 1 10 1 5 2 9 1 3 1 4 7 2 5 3 1 4 2 10 1 3"]⟩,
    ⟨["krai", "kiratrai"], spans ["93504 58"]⟩,
    ⟨["kthi", "kaithi"], spans ["69760 67 10 1"]⟩,
    ⟨["lana", "taitham"], spans ["6688 63 1 29 2 11 6 10 6 14"]⟩,
    ⟨["laoo", "lao"], spans ["3713 2 1 1 1 5 1 24 1 1 1 23 2 5 1 1 1 7 1 10 2 4"]⟩,
    ⟨["latn", "latin"],
      spans ["65 26 6 26 47 1 15 1 5 23 1 31 1 449 39 5 6683 38 6 49 5 4 5 13 1 70 65 256 369 1 13 1 16 13",
        "141 2 6 1 27 1 17 41 2775 32 31394 102 3 82 20 15 816 43 1 9 1 4 20374 7 1050 26 6 26 2085 6",
        "1 42 1 9 55109 31 6 6"]⟩,
    ⟨["lepc", "lepcha"], spans ["7168 56 3 15 3 3"]⟩,
    ⟨["limb", "limbu"], spans ["6400 31 1 12 4 12 4 1 3 12"]⟩,
    ⟨["lina", "lineara"], spans ["67072 311 9 22 10 8"]⟩,
    ⟨["linb", "linearb"], spans ["65536 12 1 26 1 19 1 2 1 15 2 14 34 123"]⟩,
    ⟨["lisu"], spans ["42192 48 31408 1"]⟩,
    ⟨["lyci", "lycian"], spans ["66176 29"]⟩,
    ⟨["lydi", "lydian"], spans ["67872 26 5 1"]⟩,
    ⟨["mahj", "mahajani"], spans ["69968 39"]⟩,
    ⟨["maka", "makasar"], spans ["73440 25"]⟩,
    ⟨["mand", "mandaic"], spans ["2112 28 2 1"]⟩,
    ⟨["mani", "manichaean"], spans ["68288 39 4 12"]⟩,
    ⟨["marc", "marchen"], spans ["72816 32 2 22 1 14"]⟩,
    ⟨["medf", "medefaidrin"], spans ["93760 91"]⟩,
    ⟨["mend", "mendekikakui"], spans ["124928 197 2 16"]⟩,
    ⟨["merc", "meroiticcursive"], spans ["68000 24 4 20 2 46"]⟩,
    ⟨["mero", "meroitichieroglyphs"], spans ["67968 32"]⟩,
    ⟨["mlym", "malayalam"], spans ["3328 13 1 3 1 51 1 3 1 6 4 16 2 26"]⟩,
    ⟨["modi"], spans ["71168 69 11 10"]⟩,
    ⟨["mong", "mongolian"], spans ["6144 2 2 1 1 20 6 89 7 43 64949 13"]⟩,
    ⟨["mroo", "mro"], spans ["92736 31 1 10 4 2"]⟩,
    ⟨["mtei", "meeteimayek"], spans ["43744 23 201 46 2 10"]⟩,
    ⟨["mult", "multani"], spans ["70272 7 1 1 1 4 1 15 1 11"]⟩,
    ⟨["mymr", "myanmar"], spans ["4096 160 39232 31 97 32 27728 20"]⟩,
    ⟨["nagm", "nagmundari"], spans ["124112 42"]⟩,
    ⟨["nand", "nandinagari"], spans ["72096 8 2 46 2 11"]⟩,
    ⟨["narb", "oldnortharabian"], spans ["68224 32"]⟩,
    ⟨["nbat", "nabataean"], spans ["67712 31 8 9"]⟩,
    ⟨["newa"], spans ["70656 92 1 5"]⟩,
    ⟨["nkoo", "nko"], spans ["1984 59 2 3"]⟩,
    ⟨["nshu", "nushu"], spans ["94177 1 16782 396"]⟩,
    ⟨["ogam", "ogham"], spans ["5760 29"]⟩,
    ⟨["olck", "olchiki"], spans ["7248 48"]⟩,
    ⟨["onao", "olonal"], spans ["124368 43 4 1"]⟩,
    ⟨["orkh", "oldturkic"], spans ["68608 73"]⟩,
    ⟨["orya", "oriya"], spans ["2817 3 1 8 2 2 2 22 1 7 1 2 1 5 2 9 2 2 2 3 7 3 4 2 1 5 2 18"]⟩,
    ⟨["osge", "osage"], spans ["66736 36 4 36"]⟩,
    ⟨["osma", "osmanya"], spans ["66688 30 2 10"]⟩,
    ⟨["ougr", "olduyghur"], spans ["69488 26"]⟩,
    ⟨["palm", "palmyrene"], spans ["67680 32"]⟩,
    ⟨["pauc", "paucinhau"], spans ["72384 57"]⟩,
    ⟨["perm", "oldpermic"], spans ["66384 43"]⟩,
    ⟨["phag", "phagspa"], spans ["43072 56"]⟩,
    ⟨["phli", "inscriptionalpahlavi"], spans ["68448 19 5 8"]⟩,
    ⟨["phlp", "psalterpahlavi"], spans ["68480 18 7 4 12 7"]⟩,
    ⟨["phnx", "phoenician"], spans ["67840 28 3 1"]⟩,
    ⟨["plrd", "miao"], spans ["93952 75 4 57 7 17"]⟩,
    ⟨["prti", "inscriptionalparthian"], spans ["68416 22 2 8"]⟩,
    ⟨["rjng", "rejang"], spans ["43312 36 11 1"]⟩,
    ⟨["rohg", "hanifirohingya"], spans ["68864 40 8 10"]⟩,
    ⟨["runr", "runic"], spans ["5792 75 3 11"]⟩,
    ⟨["samr", "samaritan"], spans ["2048 46 2 15"]⟩,
    ⟨["sarb", "oldsoutharabian"], spans ["68192 32"]⟩,
    ⟨["saur", "saurashtra"], spans ["43136 70 8 12"]⟩,
    ⟨["sgnw", "signwriting"], spans ["120832 652 15 5 1 15"]⟩,
    ⟨["shaw", "shavian"], spans ["66640 48"]⟩,
    ⟨["shrd", "sharada"], spans ["70016 96 2432 8"]⟩,
    ⟨["sidd", "siddham"], spans ["71040 54 2 38"]⟩,
    ⟨["sidt", "sidetic"], spans ["67904 26"]⟩,
    ⟨["sind", "khudawadi"], spans ["70320 59 5 10"]⟩,
    ⟨["sinh", "sinhala"], spans ["3457 3 1 18 3 24 1 9 1 1 2 7 3 1 4 6 1 1 1 8 6 10 2 3 66540 20"]⟩,
    ⟨["sogd", "sogdian"], spans ["69424 42"]⟩,
    ⟨["sogo", "oldsogdian"], spans ["69376 40"]⟩,
    ⟨["sora", "sorasompeng"], spans ["69840 25 7 10"]⟩,
    ⟨["soyo", "soyombo"], spans ["72272 83"]⟩,
    ⟨["sund", "sundanese"], spans ["7040 64 256 8"]⟩,
    ⟨["sunu", "sunuwar"], spans ["72640 34 14 10"]⟩,
    ⟨["sylo", "sylotinagri"], spans ["43008 45"]⟩,
    ⟨["syrc", "syriac"], spans ["1792 14 1 60 2 3 272 11"]⟩,
    ⟨["tagb", "tagbanwa"], spans ["5984 13 1 3 1 2"]⟩,
    ⟨["takr", "takri"], spans ["71296 58 6 10"]⟩,
    ⟨["tale", "taile"], spans ["6480 30 2 5"]⟩,
    ⟨["talu", "newtailue"], spans ["6528 44 4 26 6 11 3 2"]⟩,
    ⟨["taml", "tamil"],
      spans ["2946 2 1 6 3 3 1 4 3 2 1 1 1 2 3 2 3 3 3 12 4 5 3 3 1 4 2 1 6 1 14 21 70597 50 13 1"]⟩,
    ⟨["tang", "tangut"], spans ["94176 1 31 6912 512 31 97 115"]⟩,
    ⟨["tavt", "taiviet"], spans ["43648 67 24 5"]⟩,
    ⟨["tayo", "taiyo"], spans ["124608 31 1 22 8 2"]⟩,
    ⟨["telu", "telugu"], spans ["3072 13 1 3 1 23 1 16 2 9 1 3 1 4 7 2 1 3 1 2 2 4 2 10 7 9"]⟩,
    ⟨["tfng", "tifinagh"], spans ["11568 56 7 2 14 1"]⟩,
    ⟨["tglg", "tagalog"], spans ["5888 22 9 1"]⟩,
    ⟨["thaa", "thaana"], spans ["1920 50"]⟩,
    ⟨["thai"], spans ["3585 58 5 28"]⟩,
    ⟨["tibt", "tibetan"], spans ["3840 72 1 36 4 39 1 36 1 15 1 7 4 2"]⟩,
    ⟨["tirh", "tirhuta"], spans ["70784 72 8 10"]⟩,
    ⟨["tnsa", "tangsa"], spans ["92784 79 1 10"]⟩,
    ⟨["todr", "todhri"], spans ["67008 52"]⟩,
    ⟨["tols", "tolongsiki"], spans ["73136 44 4 10"]⟩,
    ⟨["toto"], spans ["123536 31"]⟩,
    ⟨["tutg", "tulutigalari"], spans ["70528 10 1 1 2 1 1 38 1 10 1 1 2 1 1 4 1 10 1 2 8 2"]⟩,
    ⟨["ugar", "ugaritic"], spans ["66432 30 1 1"]⟩,
    ⟨["vaii", "vai"], spans ["42240 300"]⟩,
    ⟨["vith", "vithkuqi"], spans ["66928 11 1 15 1 7 1 2 1 11 1 15 1 7 1 2"]⟩,
    ⟨["wara", "warangciti"], spans ["71840 83 12 1"]⟩,
    ⟨["wcho", "wancho"], spans ["123584 58 5 1"]⟩,
    ⟨["xpeo", "oldpersian"], spans ["66464 36 4 14"]⟩,
    ⟨["xsux", "cuneiform"], spans ["73728 922 102 111 1 5 11 196"]⟩,
    ⟨["yezi", "yezidi"], spans ["69248 42 1 3 2 2"]⟩,
    ⟨["yiii", "yi"], spans ["40960 1165 3 55"]⟩,
    ⟨["zanb", "zanabazarsquare"], spans ["72192 72"]⟩,
    ⟨["zinh", "inherited", "qaai"],
      spans ["768 112 277 2 452 11 26 1 736 4 4443 46 2 12 484 3 1 13 1 7 4 1 6 1 3 2 198 64 524 2 194 33",
        "3897 4 107 2 52581 16 16 14 975 1 226 1 4186 1 48068 46 2 23 544 3 17 8 2 7 30 4 798546 240"]⟩,
    ⟨["zyyy", "common"],
      spans ["0 65 26 6 26 47 1 15 1 5 23 1 31 1 449 39 5 5 2 20 116 1 9 1 6 1 1 1 637 1 6 1 14 1 3 1 32 1",
        "156 1 516 1 129 2 1241 1 405 4 290 1 1519 3 71 2 203 2 1 1 1229 1 13 1 7 4 1 6 1 3 2 1 773 12",
        "2 87 1 11 3 11 1 15 17 34 62 38 1 3 2 6 1 27 1 17 41 3 4 666 22 11 21 928 256 628 2 138 512",
        "94 402 21 1 1 1 25 15 8 4 4 91 2 3 1 90 2 147 16 32 38 9 1 48 64 31 81 47 1 88 168 6592 64",
        "22784 34 102 3 165 10 244 1 160 1 395 1 14 2 20946 2 208 10 22 35 1 19 1 4 147 1 1 32 26 6 26",
        "11 10 1 45 2 64 7 1 7 10 5 258 3 4 45 3 9 80 13 51 45 228 27 47524 4 3932 253 3 436 6 23 15",
        "17 95 116 60 246 10 39 2 62 3 17 8 2 7 30 4 61 213 20 12 20 12 87 9 25 135 85 1 71 1 2 2 1 2",
        "2 2 4 1 12 1 1 1 7 1 65 1 4 2 8 1 7 1 28 1 4 1 5 1 1 3 7 1 340 2 292 2 50 5233 68 76 61 706",
        "44 4 100 12 15 2 15 1 15 1 37 10 174 56 26 1 2 13 44 4 9 7 2 14 6 154 985 3 17 3 13 3 218 6",
        "12 4 1 15 12 4 56 8 10 6 40 8 30 2 12 4 2 14 9 39 344 8 14 2 13 3 11 3 57 1 1 4 16 2 12 4 10",
        "7 147 1 103 787462 1 30 96"]⟩]

/-- Characters that are used in the scripts named, whatever their own script is. -/
def sharedCharacters : List (List String × List (Nat × Nat)) :=
  [(["avst", "cari", "copt", "dupl", "elba", "geor", "glag", "gong", "goth", "grek", "hani", "latn",
      "lydi", "mahj", "perm", "shaw"], spans ["183 1"]),
    (["beng", "cyrl", "deva", "latn", "lisu", "thai", "toto"], spans ["700 1"]),
    (["bopo", "latn"], spans ["711 1 1 3 13 1"]),
    (["latn", "lisu"], spans ["717 1"]),
    (["latn", "thai"], spans ["727 1"]),
    (["cher", "copt", "cyrl", "grek", "latn", "perm", "sunu", "tale"], spans ["768 1"]),
    (["cher", "cyrl", "grek", "latn", "osge", "sunu", "tale", "todr"], spans ["769 1"]),
    (["cher", "cyrl", "latn", "tfng"], spans ["770 1"]),
    (["glag", "latn", "sunu", "syrc", "thai"], spans ["771 1"]),
    (["aghb", "cher", "copt", "cyrl", "goth", "grek", "latn", "osge", "syrc", "tfng", "todr"],
      spans ["772 1"]),
    (["copt", "elba", "glag", "goth", "kana", "latn"], spans ["773 1"]),
    (["cyrl", "grek", "latn", "perm", "tfng"], spans ["774 1"]),
    (["copt", "dupl", "hebr", "latn", "perm", "syrc", "tale", "tfng", "todr"], spans ["775 1"]),
    (["armn", "cyrl", "dupl", "goth", "grek", "hebr", "latn", "perm", "syrc", "tale", "tfng"],
      spans ["776 1"]),
    (["latn", "tfng"], spans ["777 1"]),
    (["dupl", "latn", "syrc"], spans ["778 1"]),
    (["cher", "cyrl", "latn", "osge"], spans ["779 1"]),
    (["cher", "latn", "tale"], spans ["780 1"]),
    (["latn", "sunu"], spans ["781 1 2 1"]),
    (["ethi", "latn"], spans ["782 1"]),
    (["cyrl", "latn", "todr"], spans ["785 1"]),
    (["grek", "latn", "perm", "todr"], spans ["787 1"]),
    (["cher", "dupl", "kana", "latn", "syrc", "tfng"], spans ["803 1"]),
    (["cher", "dupl", "latn", "syrc"], spans ["804 1"]),
    (["latn", "syrc"], spans ["805 1 8 1"]),
    (["latn", "sunu", "syrc"], spans ["813 1"]),
    (["cher", "latn", "syrc"], spans ["816 1"]),
    (["aghb", "cher", "goth", "latn", "sunu", "syrc", "thai"], spans ["817 1"]),
    (["grek"], spans ["834 1 2 1 6778 2"]),
    (["latn", "osge"], spans ["856 1"]),
    (["aghb", "latn", "todr"], spans ["862 1"]),
    (["latn"], spans ["867 13"]),
    (["copt", "grek"], spans ["884 2"]),
    (["cyrl", "perm"], spans ["1155 1"]),
    (["cyrl", "glag"], spans ["1156 1 2 1 10683 1 30763 1"]),
    (["cyrl", "latn"], spans ["1157 2"]),
    (["armn", "geor", "glag"], spans ["1417 1"]),
    (["arab", "gara", "nkoo", "rohg", "syrc", "thaa", "yezi"], spans ["1548 1 14 1"]),
    (["arab", "syrc", "thaa"], spans ["1564 1"]),
    (["adlm", "arab", "gara", "nkoo", "rohg", "syrc", "thaa", "yezi"], spans ["1567 1"]),
    (["adlm", "arab", "mand", "mani", "ougr", "phlp", "rohg", "sogd", "syrc"], spans ["1600 1"]),
    (["arab", "syrc"], spans ["1611 11 26 1"]),
    (["arab", "thaa", "yezi"], spans ["1632 10"]),
    (["arab", "rohg"], spans ["1748 1"]),
    (["beng", "deva", "gran", "gujr", "guru", "knda", "latn", "mlym", "nand", "newa", "orya", "shrd",
      "taml", "telu", "tirh"], spans ["2385 1"]),
    (["beng", "deva", "gran", "gujr", "guru", "knda", "latn", "mlym", "newa", "orya", "taml", "telu",
      "tirh"], spans ["2386 1"]),
    (["beng", "deva", "dogr", "gong", "gonm", "gran", "gujr", "guru", "knda", "mahj", "mlym", "nand",
      "onao", "orya", "sind", "sinh", "sylo", "takr", "taml", "telu", "tirh"], spans ["2404 1"]),
    (["beng", "deva", "dogr", "gong", "gonm", "gran", "gujr", "gukh", "guru", "knda", "limb", "mahj",
      "mlym", "nand", "onao", "orya", "sind", "sinh", "sylo", "takr", "taml", "telu", "tirh"],
      spans ["2405 1"]),
    (["deva", "dogr", "kthi", "mahj"], spans ["2406 10"]),
    (["beng", "cakm", "sylo"], spans ["2534 10"]),
    (["guru", "mult"], spans ["2662 10"]),
    (["gujr", "khoj"], spans ["2790 10"]),
    (["gran", "taml"], spans ["3046 14 67341 1 1 1 55 2 3219 2 1 1"]),
    (["knda", "nand", "tutg"], spans ["3302 10"]),
    (["cakm", "mymr", "tale"], spans ["4160 10"]),
    (["geor", "glag", "latn"], spans ["4347 1"]),
    (["runr"], spans ["5867 3"]),
    (["buhd", "hano", "tagb", "tglg"], spans ["5941 2"]),
    (["mong", "phag"], spans ["6146 2 1 1"]),
    (["beng", "deva", "gran", "knda"], spans ["7376 1 1 1"]),
    (["deva"], spans ["7377 1 2 1 6 1 2 2 3 6 3 1 1 4"]),
    (["deva", "gran", "knda"], spans ["7379 1"]),
    (["beng", "deva", "newa", "telu", "tirh"], spans ["7381 1"]),
    (["beng", "deva", "telu"], spans ["7382 1"]),
    (["deva", "newa", "shrd"], spans ["7383 1"]),
    (["beng", "deva", "newa", "telu"], spans ["7384 1"]),
    (["deva", "shrd"], spans ["7385 1 2 2 2 1"]),
    (["deva", "knda", "mlym", "orya", "taml", "telu"], spans ["7386 1"]),
    (["beng", "deva"], spans ["7393 1 19 2"]),
    (["deva", "newa", "tirh"], spans ["7394 1"]),
    (["deva", "nand", "newa"], spans ["7401 1"]),
    (["beng", "deva", "shrd"], spans ["7402 1"]),
    (["deva", "newa"], spans ["7403 1"]),
    (["beng", "deva", "newa", "shrd"], spans ["7405 1"]),
    (["beng", "deva", "gran", "knda", "mlym", "nand", "orya", "sinh", "telu", "tirh", "tutg"],
      spans ["7410 1"]),
    (["deva", "gran"], spans ["7411 1 4 2"]),
    (["deva", "gran", "knda", "tutg"], spans ["7412 1"]),
    (["beng"], spans ["7415 1"]),
    (["nand"], spans ["7418 1"]),
    (["cyrl", "latn", "syrc"], spans ["7672 1"]),
    (["syrc"], spans ["7674 1"]),
    (["latn", "mong", "phag"], spans ["8239 1"]),
    (["adlm", "arab"], spans ["8271 1"]),
    (["cari", "geor", "glag", "hung", "lyci", "orkh"], spans ["8282 1"]),
    (["cari", "grek", "hung", "mero"], spans ["8285 1"]),
    (["deva", "gran", "latn"], spans ["8432 1"]),
    (["copt", "latn"], spans ["11799 1"]),
    (["avst", "orkh"], spans ["11824 1"]),
    (["avst", "cari", "geor", "hung", "kthi", "lydi", "samr"], spans ["11825 1"]),
    (["dupl"], spans ["11836 1 101987 4"]),
    (["adlm", "arab", "hung"], spans ["11841 1"]),
    (["hani", "tang"], spans ["12272 16 495 1"]),
    (["bopo", "hang", "hani", "hira", "kana", "mong", "yiii"], spans ["12289 1"]),
    (["bopo", "hang", "hani", "hira", "kana", "mong", "phag", "yiii"], spans ["12290 1"]),
    (["bopo", "hang", "hani", "hira", "kana"], spans ["12291 1 15 1 8 4 16 1 6 1 52749 2"]),
    (["hani"],
      spans ["12294 1 55 2 336 16 32 38 58 40 56 49 15 12 51 1 88 25 10 5 96 31 106337 18 7902 2"]),
    (["bopo", "hang", "hani", "hira", "kana", "mong", "tibt", "yiii"], spans ["12296 2"]),
    (["bopo", "hang", "hani", "hira", "kana", "lisu", "mong", "tibt", "yiii"], spans ["12298 2"]),
    (["bopo", "hang", "hani", "hira", "kana", "yiii"], spans ["12300 6 2 8 223 1 52837 5"]),
    (["bopo", "hani"], spans ["12330 4"]),
    (["hira", "kana"], spans ["12337 5 99 4 3 1 91 1 52851 1 45 2"]),
    (["hani", "hira", "kana"], spans ["12348 2"]),
    (["hani", "latn"], spans ["42752 8"]),
    (["deva", "dogr", "gujr", "guru", "khoj", "knda", "kthi", "mahj", "mlym", "modi", "nand", "shrd",
      "sind", "takr", "tirh", "tutg"], spans ["43056 3"]),
    (["deva", "dogr", "gujr", "guru", "khoj", "knda", "kthi", "mahj", "modi", "nand", "shrd", "sind",
      "takr", "tirh", "tutg"], spans ["43059 3"]),
    (["deva", "dogr", "gujr", "guru", "khoj", "kthi", "mahj", "modi", "sind", "takr", "tirh"],
      spans ["43062 2 1 1"]),
    (["deva", "dogr", "gujr", "guru", "khoj", "kthi", "mahj", "modi", "shrd", "sind", "takr", "tirh"],
      spans ["43064 1"]),
    (["beng", "deva", "tutg"], spans ["43249 1"]),
    (["deva", "taml"], spans ["43251 1"]),
    (["kali", "latn", "mymr"], spans ["43310 1"]),
    (["bugi", "java"], spans ["43471 1"]),
    (["arab", "nkoo"], spans ["64830 2"]),
    (["arab", "thaa"], spans ["65010 1 10 1"]),
    (["cpmn", "cprt", "linb"], spans ["65792 2"]),
    (["cprt", "linb"], spans ["65794 1 52 9"]),
    (["cprt", "lina", "linb"], spans ["65799 45"]),
    (["arab", "copt"], spans ["66272 28"]),
    (["mani", "ougr"], spans ["68338 1"])]

def script? (name : String) : Option Script := scripts.find? (·.names.contains name)

/-- Characters that a script shares with others. A script that stands for none shares all that any share. -/
def Script.shared (script : Script) : List (Nat × Nat) :=
  (sharedCharacters.filter fun entry => entry.1.any script.names.contains).flatMap (·.2)

end DesignCompiler.Text
