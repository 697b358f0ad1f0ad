import LexicalModes.Unicode.CharSet

/-!
Scripts, each known by a code of four letters.

Every character has one script, which may be `Zyyy` for those common to many or `Zinh` for marks
that go with any. A character may be used with further scripts; the groups of characters of which
that is known are listed in `extensions`.
-/

namespace LexicalModes.Unicode.Script

/-- Codes of the scripts with the names they are asked for by, in small letters without
separators. -/
def names : List (String × List String) :=
  [("Adlm", ["adlm", "adlam"]), ("Aghb", ["aghb", "caucasianalbanian"]), ("Ahom", ["ahom"]),
   ("Arab", ["arab", "arabic"]), ("Armi", ["armi", "imperialaramaic"]),
   ("Armn", ["armn", "armenian"]), ("Avst", ["avst", "avestan"]),
   ("Bali", ["bali", "balinese"]), ("Bamu", ["bamu", "bamum"]), ("Bass", ["bass", "bassavah"]),
   ("Batk", ["batk", "batak"]), ("Beng", ["beng", "bengali"]), ("Bhks", ["bhks", "bhaiksuki"]),
   ("Bopo", ["bopo", "bopomofo"]), ("Brah", ["brah", "brahmi"]), ("Brai", ["brai", "braille"]),
   ("Bugi", ["bugi", "buginese"]), ("Buhd", ["buhd", "buhid"]), ("Cakm", ["cakm", "chakma"]),
   ("Cans", ["cans", "canadianaboriginal"]), ("Cari", ["cari", "carian"]), ("Cham", ["cham"]),
   ("Cher", ["cher", "cherokee"]), ("Chrs", ["chrs", "chorasmian"]),
   ("Copt", ["copt", "coptic", "qaac"]), ("Cpmn", ["cpmn", "cyprominoan"]),
   ("Cprt", ["cprt", "cypriot"]), ("Cyrl", ["cyrl", "cyrillic"]),
   ("Deva", ["deva", "devanagari"]), ("Diak", ["diak", "divesakuru"]),
   ("Dogr", ["dogr", "dogra"]), ("Dsrt", ["dsrt", "deseret"]), ("Dupl", ["dupl", "duployan"]),
   ("Egyp", ["egyp", "egyptianhieroglyphs"]), ("Elba", ["elba", "elbasan"]),
   ("Elym", ["elym", "elymaic"]), ("Ethi", ["ethi", "ethiopic"]), ("Gara", ["gara", "garay"]),
   ("Geor", ["geor", "georgian"]), ("Glag", ["glag", "glagolitic"]),
   ("Gong", ["gong", "gunjalagondi"]), ("Gonm", ["gonm", "masaramgondi"]),
   ("Goth", ["goth", "gothic"]), ("Gran", ["gran", "grantha"]), ("Grek", ["grek", "greek"]),
   ("Gujr", ["gujr", "gujarati"]), ("Gukh", ["gukh", "gurungkhema"]),
   ("Guru", ["guru", "gurmukhi"]), ("Hang", ["hang", "hangul"]), ("Hani", ["hani", "han"]),
   ("Hano", ["hano", "hanunoo"]), ("Hatr", ["hatr", "hatran"]), ("Hebr", ["hebr", "hebrew"]),
   ("Hira", ["hira", "hiragana"]), ("Hluw", ["hluw", "anatolianhieroglyphs"]),
   ("Hmng", ["hmng", "pahawhhmong"]), ("Hmnp", ["hmnp", "nyiakengpuachuehmong"]),
   ("Hung", ["hung", "oldhungarian"]), ("Ital", ["ital", "olditalic"]),
   ("Java", ["java", "javanese"]), ("Kali", ["kali", "kayahli"]),
   ("Kana", ["kana", "katakana"]), ("Kawi", ["kawi"]), ("Khar", ["khar", "kharoshthi"]),
   ("Khmr", ["khmr", "khmer"]), ("Khoj", ["khoj", "khojki"]),
   ("Kits", ["kits", "khitansmallscript"]), ("Knda", ["knda", "kannada"]),
   ("Krai", ["krai", "kiratrai"]), ("Kthi", ["kthi", "kaithi"]), ("Lana", ["lana", "taitham"]),
   ("Laoo", ["laoo", "lao"]), ("Latn", ["latn", "latin"]), ("Lepc", ["lepc", "lepcha"]),
   ("Limb", ["limb", "limbu"]), ("Lina", ["lina", "lineara"]), ("Linb", ["linb", "linearb"]),
   ("Lisu", ["lisu"]), ("Lyci", ["lyci", "lycian"]), ("Lydi", ["lydi", "lydian"]),
   ("Mahj", ["mahj", "mahajani"]), ("Maka", ["maka", "makasar"]),
   ("Mand", ["mand", "mandaic"]), ("Mani", ["mani", "manichaean"]),
   ("Marc", ["marc", "marchen"]), ("Medf", ["medf", "medefaidrin"]),
   ("Mend", ["mend", "mendekikakui"]), ("Merc", ["merc", "meroiticcursive"]),
   ("Mero", ["mero", "meroitichieroglyphs"]), ("Mlym", ["mlym", "malayalam"]),
   ("Modi", ["modi"]), ("Mong", ["mong", "mongolian"]), ("Mroo", ["mroo", "mro"]),
   ("Mtei", ["mtei", "meeteimayek"]), ("Mult", ["mult", "multani"]),
   ("Mymr", ["mymr", "myanmar"]), ("Nagm", ["nagm", "nagmundari"]),
   ("Nand", ["nand", "nandinagari"]), ("Narb", ["narb", "oldnortharabian"]),
   ("Nbat", ["nbat", "nabataean"]), ("Newa", ["newa"]), ("Nkoo", ["nkoo", "nko"]),
   ("Nshu", ["nshu", "nushu"]), ("Ogam", ["ogam", "ogham"]), ("Olck", ["olck", "olchiki"]),
   ("Onao", ["onao", "olonal"]), ("Orkh", ["orkh", "oldturkic"]), ("Orya", ["orya", "oriya"]),
   ("Osge", ["osge", "osage"]), ("Osma", ["osma", "osmanya"]), ("Ougr", ["ougr", "olduyghur"]),
   ("Palm", ["palm", "palmyrene"]), ("Pauc", ["pauc", "paucinhau"]),
   ("Perm", ["perm", "oldpermic"]), ("Phag", ["phag", "phagspa"]),
   ("Phli", ["phli", "inscriptionalpahlavi"]), ("Phlp", ["phlp", "psalterpahlavi"]),
   ("Phnx", ["phnx", "phoenician"]), ("Plrd", ["plrd", "miao"]),
   ("Prti", ["prti", "inscriptionalparthian"]), ("Rjng", ["rjng", "rejang"]),
   ("Rohg", ["rohg", "hanifirohingya"]), ("Runr", ["runr", "runic"]),
   ("Samr", ["samr", "samaritan"]), ("Sarb", ["sarb", "oldsoutharabian"]),
   ("Saur", ["saur", "saurashtra"]), ("Sgnw", ["sgnw", "signwriting"]),
   ("Shaw", ["shaw", "shavian"]), ("Shrd", ["shrd", "sharada"]), ("Sidd", ["sidd", "siddham"]),
   ("Sind", ["sind", "khudawadi"]), ("Sinh", ["sinh", "sinhala"]),
   ("Sogd", ["sogd", "sogdian"]), ("Sogo", ["sogo", "oldsogdian"]),
   ("Sora", ["sora", "sorasompeng"]), ("Soyo", ["soyo", "soyombo"]),
   ("Sund", ["sund", "sundanese"]), ("Sunu", ["sunu", "sunuwar"]),
   ("Sylo", ["sylo", "sylotinagri"]), ("Syrc", ["syrc", "syriac"]),
   ("Tagb", ["tagb", "tagbanwa"]), ("Takr", ["takr", "takri"]), ("Tale", ["tale", "taile"]),
   ("Talu", ["talu", "newtailue"]), ("Taml", ["taml", "tamil"]), ("Tang", ["tang", "tangut"]),
   ("Tavt", ["tavt", "taiviet"]), ("Telu", ["telu", "telugu"]), ("Tfng", ["tfng", "tifinagh"]),
   ("Tglg", ["tglg", "tagalog"]), ("Thaa", ["thaa", "thaana"]), ("Thai", ["thai"]),
   ("Tibt", ["tibt", "tibetan"]), ("Tirh", ["tirh", "tirhuta"]), ("Tnsa", ["tnsa", "tangsa"]),
   ("Todr", ["todr", "todhri"]), ("Toto", ["toto"]), ("Tutg", ["tutg", "tulutigalari"]),
   ("Ugar", ["ugar", "ugaritic"]), ("Vaii", ["vaii", "vai"]), ("Vith", ["vith", "vithkuqi"]),
   ("Wara", ["wara", "warangciti"]), ("Wcho", ["wcho", "wancho"]),
   ("Xpeo", ["xpeo", "oldpersian"]), ("Xsux", ["xsux", "cuneiform"]),
   ("Yezi", ["yezi", "yezidi"]), ("Yiii", ["yiii", "yi"]),
   ("Zanb", ["zanb", "zanabazarsquare"]), ("Zinh", ["zinh", "inherited", "qaai"]),
   ("Zyyy", ["zyyy", "common"])]

/-- The runs of equal script, from code point zero to the last one; `Zzzz` stands for none. -/
def encodedRuns : List String :=
  ["Zyyy65Latn26Zyyy6Latn26Zyyy47Latn1Zyyy15Latn1Zyyy5Latn23Zyyy1Latn31Zyyy1Latn449Zyyy39Latn5",
   "Zyyy5Bopo2Zyyy20Zinh112Grek4Zyyy1Grek3Zzzz2Grek4Zyyy1Grek1Zzzz4Grek1Zyyy1Grek1Zyyy1Grek3",
   "Zzzz1Grek1Zzzz1Grek20Zzzz1Grek63Copt14Grek16Cyrl133Zinh2Cyrl169Zzzz1Armn38Zzzz2Armn50Zzzz2",
   "Armn3Zzzz1Hebr55Zzzz8Hebr27Zzzz4Hebr6Zzzz11Arab5Zyyy1Arab6Zyyy1Arab14Zyyy1Arab3Zyyy1Arab32",
   "Zyyy1Arab10Zinh11Arab26Zinh1Arab108Zyyy1Arab34Syrc14Zzzz1Syrc60Zzzz2Syrc3Arab48Thaa50Zzzz14",
   "Nkoo59Zzzz2Nkoo3Samr46Zzzz2Samr15Zzzz1Mand28Zzzz2Mand1Zzzz1Syrc11Zzzz5Arab31Zzzz1Arab2Zzzz5",
   "Arab75Zyyy1Arab29Deva81Zinh4Deva15Zyyy2Deva26Beng4Zzzz1Beng8Zzzz2Beng2Zzzz2Beng22Zzzz1Beng7",
   "Zzzz1Beng1Zzzz3Beng4Zzzz2Beng9Zzzz2Beng2Zzzz2Beng4Zzzz8Beng1Zzzz4Beng2Zzzz1Beng5Zzzz2Beng25",
   "Zzzz2Guru3Zzzz1Guru6Zzzz4Guru2Zzzz2Guru22Zzzz1Guru7Zzzz1Guru2Zzzz1Guru2Zzzz1Guru2Zzzz2Guru1",
   "Zzzz1Guru5Zzzz4Guru2Zzzz2Guru3Zzzz3Guru1Zzzz7Guru4Zzzz1Guru1Zzzz7Guru17Zzzz10Gujr3Zzzz1Gujr9",
   "Zzzz1Gujr3Zzzz1Gujr22Zzzz1Gujr7Zzzz1Gujr2Zzzz1Gujr5Zzzz2Gujr10Zzzz1Gujr3Zzzz1Gujr3Zzzz2Gujr1",
   "Zzzz15Gujr4Zzzz2Gujr12Zzzz7Gujr7Zzzz1Orya3Zzzz1Orya8Zzzz2Orya2Zzzz2Orya22Zzzz1Orya7Zzzz1",
   "Orya2Zzzz1Orya5Zzzz2Orya9Zzzz2Orya2Zzzz2Orya3Zzzz7Orya3Zzzz4Orya2Zzzz1Orya5Zzzz2Orya18Zzzz10",
   "Taml2Zzzz1Taml6Zzzz3Taml3Zzzz1Taml4Zzzz3Taml2Zzzz1Taml1Zzzz1Taml2Zzzz3Taml2Zzzz3Taml3Zzzz3",
   "Taml12Zzzz4Taml5Zzzz3Taml3Zzzz1Taml4Zzzz2Taml1Zzzz6Taml1Zzzz14Taml21Zzzz5Telu13Zzzz1Telu3",
   "Zzzz1Telu23Zzzz1Telu16Zzzz2Telu9Zzzz1Telu3Zzzz1Telu4Zzzz7Telu2Zzzz1Telu3Zzzz2Telu1Zzzz2Telu4",
   "Zzzz2Telu10Zzzz7Telu9Knda13Zzzz1Knda3Zzzz1Knda23Zzzz1Knda10Zzzz1Knda5Zzzz2Knda9Zzzz1Knda3",
   "Zzzz1Knda4Zzzz7Knda2Zzzz6Knda2Zzzz1Knda4Zzzz2Knda10Zzzz1Knda3Zzzz12Mlym13Zzzz1Mlym3Zzzz1",
   "Mlym51Zzzz1Mlym3Zzzz1Mlym6Zzzz4Mlym16Zzzz2Mlym26Zzzz1Sinh3Zzzz1Sinh18Zzzz3Sinh24Zzzz1Sinh9",
   "Zzzz1Sinh1Zzzz2Sinh7Zzzz3Sinh1Zzzz4Sinh6Zzzz1Sinh1Zzzz1Sinh8Zzzz6Sinh10Zzzz2Sinh3Zzzz12",
   "Thai58Zzzz4Zyyy1Thai28Zzzz37Laoo2Zzzz1Laoo1Zzzz1Laoo5Zzzz1Laoo24Zzzz1Laoo1Zzzz1Laoo23Zzzz2",
   "Laoo5Zzzz1Laoo1Zzzz1Laoo7Zzzz1Laoo10Zzzz2Laoo4Zzzz32Tibt72Zzzz1Tibt36Zzzz4Tibt39Zzzz1Tibt36",
   "Zzzz1Tibt15Zzzz1Tibt7Zyyy4Tibt2Zzzz37Mymr160Geor38Zzzz1Geor1Zzzz5Geor1Zzzz2Geor43Zyyy1Geor4",
   "Hang256Ethi73Zzzz1Ethi4Zzzz2Ethi7Zzzz1Ethi1Zzzz1Ethi4Zzzz2Ethi41Zzzz1Ethi4Zzzz2Ethi33Zzzz1",
   "Ethi4Zzzz2Ethi7Zzzz1Ethi1Zzzz1Ethi4Zzzz2Ethi15Zzzz1Ethi57Zzzz1Ethi4Zzzz2Ethi67Zzzz2Ethi32",
   "Zzzz3Ethi26Zzzz6Cher86Zzzz2Cher6Zzzz2Cans640Ogam29Zzzz3Runr75Zyyy3Runr11Zzzz7Tglg22Zzzz9",
   "Tglg1Hano21Zyyy2Zzzz9Buhd20Zzzz12Tagb13Zzzz1Tagb3Zzzz1Tagb2Zzzz12Khmr94Zzzz2Khmr10Zzzz6",
   "Khmr10Zzzz6Mong2Zyyy2Mong1Zyyy1Mong20Zzzz6Mong89Zzzz7Mong43Zzzz5Cans70Zzzz10Limb31Zzzz1",
   "Limb12Zzzz4Limb12Zzzz4Limb1Zzzz3Limb12Tale30Zzzz2Tale5Zzzz11Talu44Zzzz4Talu26Zzzz6Talu11",
   "Zzzz3Talu2Khmr32Bugi28Zzzz2Bugi2Lana63Zzzz1Lana29Zzzz2Lana11Zzzz6Lana10Zzzz6Lana14Zzzz2",
   "Zinh31Zzzz49Bali77Zzzz1Bali50Sund64Batk52Zzzz8Batk4Lepc56Zzzz3Lepc15Zzzz3Lepc3Olck48Cyrl11",
   "Zzzz5Geor43Zzzz2Geor3Sund8Zzzz8Zinh3Zyyy1Zinh13Zyyy1Zinh7Zyyy4Zinh1Zyyy6Zinh1Zyyy3Zinh2Zyyy1",
   "Zzzz5Latn38Grek5Cyrl1Latn49Grek5Latn4Grek5Latn13Cyrl1Latn70Grek1Zinh64Latn256Grek22Zzzz2",
   "Grek6Zzzz2Grek38Zzzz2Grek6Zzzz2Grek8Zzzz1Grek1Zzzz1Grek1Zzzz1Grek1Zzzz1Grek31Zzzz2Grek53",
   "Zzzz1Grek15Zzzz1Grek14Zzzz2Grek6Zzzz1Grek19Zzzz2Grek3Zzzz1Grek9Zzzz1Zyyy12Zinh2Zyyy87Zzzz1",
   "Zyyy11Latn1Zzzz2Zyyy11Latn1Zyyy15Zzzz1Latn13Zzzz3Zyyy33Zzzz15Zinh33Zzzz15Zyyy38Grek1Zyyy3",
   "Latn2Zyyy6Latn1Zyyy27Latn1Zyyy17Latn41Zyyy3Zzzz4Zyyy666Zzzz22Zyyy11Zzzz21Zyyy928Brai256",
   "Zyyy628Zzzz2Zyyy32Zzzz1Zyyy105Glag96Latn32Copt116Zzzz5Copt7Geor38Zzzz1Geor1Zzzz5Geor1Zzzz2",
   "Tfng56Zzzz7Tfng2Zzzz14Tfng1Ethi23Zzzz9Ethi7Zzzz1Ethi7Zzzz1Ethi7Zzzz1Ethi7Zzzz1Ethi7Zzzz1",
   "Ethi7Zzzz1Ethi7Zzzz1Ethi7Zzzz1Cyrl32Zyyy94Zzzz34Hani26Zzzz1Hani89Zzzz12Hani214Zzzz26Zyyy21",
   "Hani1Zyyy1Hani1Zyyy25Hani9Zinh4Hang2Zyyy8Hani4Zyyy4Zzzz1Hira86Zzzz2Zinh2Zyyy2Hira3Zyyy1",
   "Kana90Zyyy2Kana3Zzzz5Bopo43Zzzz1Hang94Zzzz1Zyyy16Bopo32Zyyy38Zzzz9Zyyy1Kana16Hang31Zzzz1",
   "Zyyy64Hang31Zyyy81Kana47Zyyy1Kana88Zyyy168Hani6592Zyyy64Hani20992Yiii1165Zzzz3Yiii55Zzzz9",
   "Lisu48Vaii300Zzzz20Cyrl96Bamu88Zzzz8Zyyy34Latn102Zyyy3Latn67Zzzz2Latn2Zzzz1Latn1Zzzz1Latn8",
   "Zzzz21Latn14Sylo45Zzzz3Zyyy10Zzzz6Phag56Zzzz8Saur70Zzzz8Saur12Zzzz6Deva32Kali46Zyyy1Kali1",
   "Rjng36Zzzz11Rjng1Hang29Zzzz3Java78Zzzz1Zyyy1Java10Zzzz4Java2Mymr31Zzzz1Cham55Zzzz9Cham14",
   "Zzzz2Cham10Zzzz2Cham4Mymr32Tavt67Zzzz24Tavt5Mtei23Zzzz10Ethi6Zzzz2Ethi6Zzzz2Ethi6Zzzz9Ethi7",
   "Zzzz1Ethi7Zzzz1Latn43Zyyy1Latn9Grek1Latn4Zyyy2Zzzz4Cher80Mtei46Zzzz2Mtei10Zzzz6Hang11172",
   "Zzzz12Hang23Zzzz4Hang49Zzzz8452Hani366Zzzz2Hani106Zzzz38Latn7Zzzz12Armn5Zzzz5Hebr26Zzzz1",
   "Hebr5Zzzz1Hebr1Zzzz1Hebr2Zzzz1Hebr2Zzzz1Hebr10Arab115Zzzz16Arab363Zyyy2Arab80Zzzz2Arab54",
   "Zzzz7Arab1Zzzz32Arab16Zinh16Zyyy10Zzzz6Zinh14Cyrl2Zyyy35Zzzz1Zyyy19Zzzz1Zyyy4Zzzz4Arab5Zzzz1",
   "Arab135Zzzz2Zyyy1Zzzz1Zyyy32Latn26Zyyy6Latn26Zyyy11Kana10Zyyy1Kana45Zyyy2Hang31Zzzz3Hang6",
   "Zzzz2Hang6Zzzz2Hang6Zzzz2Hang3Zzzz3Zyyy7Zzzz1Zyyy7Zzzz10Zyyy5Zzzz2Linb12Zzzz1Linb26Zzzz1",
   "Linb19Zzzz1Linb2Zzzz1Linb15Zzzz2Linb14Zzzz34Linb123Zzzz5Zyyy3Zzzz4Zyyy45Zzzz3Zyyy9Grek79",
   "Zzzz1Zyyy13Zzzz3Grek1Zzzz47Zyyy45Zinh1Zzzz130Lyci29Zzzz3Cari49Zzzz15Zinh1Zyyy27Zzzz4Ital36",
   "Zzzz9Ital3Goth27Zzzz5Perm43Zzzz5Ugar30Zzzz1Ugar1Xpeo36Zzzz4Xpeo14Zzzz42Dsrt80Shaw48Osma30",
   "Zzzz2Osma10Zzzz6Osge36Zzzz4Osge36Zzzz4Elba40Zzzz8Aghb52Zzzz11Aghb1Vith11Zzzz1Vith15Zzzz1",
   "Vith7Zzzz1Vith2Zzzz1Vith11Zzzz1Vith15Zzzz1Vith7Zzzz1Vith2Zzzz3Todr52Zzzz12Lina311Zzzz9Lina22",
   "Zzzz10Lina8Zzzz24Latn6Zzzz1Latn42Zzzz1Latn9Zzzz69Cprt6Zzzz2Cprt1Zzzz1Cprt44Zzzz1Cprt2Zzzz3",
   "Cprt1Zzzz2Cprt1Armi22Zzzz1Armi9Palm32Nbat31Zzzz8Nbat9Zzzz48Hatr19Zzzz1Hatr2Zzzz5Hatr5Phnx28",
   "Zzzz3Phnx1Lydi26Zzzz5Lydi1Zzzz64Mero32Merc24Zzzz4Merc20Zzzz2Merc46Khar4Zzzz1Khar2Zzzz5Khar8",
   "Zzzz1Khar3Zzzz1Khar29Zzzz2Khar3Zzzz4Khar10Zzzz7Khar9Zzzz7Sarb32Narb32Zzzz32Mani39Zzzz4Mani12",
   "Zzzz9Avst54Zzzz3Avst7Prti22Zzzz2Prti8Phli19Zzzz5Phli8Phlp18Zzzz7Phlp4Zzzz12Phlp7Zzzz80Orkh73",
   "Zzzz55Hung51Zzzz13Hung51Zzzz7Hung6Rohg40Zzzz8Rohg10Zzzz6Gara38Zzzz3Gara29Zzzz8Gara2Zzzz208",
   "Arab31Zzzz1Yezi42Zzzz1Yezi3Zzzz2Yezi2Zzzz16Arab3Zzzz55Arab4Sogo40Zzzz8Sogd42Zzzz22Ougr26",
   "Zzzz38Chrs28Zzzz20Elym23Zzzz9Brah78Zzzz4Brah36Zzzz9Brah1Kthi67Zzzz10Kthi1Zzzz2Sora25Zzzz7",
   "Sora10Zzzz6Cakm53Zzzz1Cakm18Zzzz8Mahj39Zzzz9Shrd96Zzzz1Sinh20Zzzz11Khoj18Zzzz1Khoj47Zzzz62",
   "Mult7Zzzz1Mult1Zzzz1Mult4Zzzz1Mult15Zzzz1Mult11Zzzz6Sind59Zzzz5Sind10Zzzz6Gran4Zzzz1Gran8",
   "Zzzz2Gran2Zzzz2Gran22Zzzz1Gran7Zzzz1Gran2Zzzz1Gran5Zzzz1Zinh1Gran9Zzzz2Gran2Zzzz2Gran3Zzzz2",
   "Gran1Zzzz6Gran1Zzzz5Gran7Zzzz2Gran7Zzzz3Gran5Zzzz11Tutg10Zzzz1Tutg1Zzzz2Tutg1Zzzz1Tutg38",
   "Zzzz1Tutg10Zzzz1Tutg1Zzzz2Tutg1Zzzz1Tutg4Zzzz1Tutg10Zzzz1Tutg2Zzzz8Tutg2Zzzz29Newa92Zzzz1",
   "Newa5Zzzz30Tirh72Zzzz8Tirh10Zzzz166Sidd54Zzzz2Sidd38Zzzz34Modi69Zzzz11Modi10Zzzz6Mong13",
   "Zzzz19Takr58Zzzz6Takr10Zzzz6Mymr20Zzzz28Ahom27Zzzz2Ahom15Zzzz4Ahom23Zzzz185Dogr60Zzzz100",
   "Wara83Zzzz12Wara1Diak7Zzzz2Diak1Zzzz2Diak8Zzzz1Diak2Zzzz1Diak30Zzzz1Diak2Zzzz2Diak12Zzzz9",
   "Diak10Zzzz70Nand8Zzzz2Nand46Zzzz2Nand11Zzzz27Zanb72Zzzz8Soyo83Zzzz13Cans16Pauc57Zzzz7Deva10",
   "Zzzz182Sunu34Zzzz14Sunu10Zzzz6Bhks9Zzzz1Bhks45Zzzz1Bhks14Zzzz10Bhks29Zzzz3Marc32Zzzz2Marc22",
   "Zzzz1Marc14Zzzz73Gonm7Zzzz1Gonm2Zzzz1Gonm44Zzzz3Gonm1Zzzz1Gonm2Zzzz1Gonm9Zzzz8Gonm10Zzzz6",
   "Gong6Zzzz1Gong2Zzzz1Gong37Zzzz1Gong2Zzzz1Gong6Zzzz7Gong10Zzzz310Maka25Zzzz7Kawi17Zzzz1Kawi41",
   "Zzzz3Kawi29Zzzz85Lisu1Zzzz15Taml50Zzzz13Taml1Xsux922Zzzz102Xsux111Zzzz1Xsux5Zzzz11Xsux196",
   "Zzzz2636Cpmn99Zzzz13Egyp1110Zzzz10Egyp3995Zzzz5Hluw583Zzzz6841Gukh58Zzzz1734Bamu569Zzzz7",
   "Mroo31Zzzz1Mroo10Zzzz4Mroo2Tnsa79Zzzz1Tnsa10Zzzz6Bass30Zzzz2Bass6Zzzz10Hmng70Zzzz10Hmng10",
   "Zzzz1Hmng7Zzzz1Hmng21Zzzz5Hmng19Zzzz432Krai58Zzzz198Medf91Zzzz101Plrd75Zzzz4Plrd57Zzzz7",
   "Plrd17Zzzz64Tang1Nshu1Hani2Kits1Zzzz11Hani2Zzzz14Tang6136Zzzz8Tang768Kits470Zzzz41Kits1Tang9",
   "Zzzz8935Kana4Zzzz1Kana7Zzzz1Kana2Zzzz1Kana1Hira287Kana3Zzzz15Hira1Zzzz29Hira3Zzzz2Kana1",
   "Zzzz14Kana4Zzzz8Nshu396Zzzz2308Dupl107Zzzz5Dupl13Zzzz3Dupl9Zzzz7Dupl10Zzzz2Dupl4Zyyy4",
   "Zzzz3932Zyyy250Zzzz6Zyyy436Zzzz76Zinh46Zzzz2Zinh23Zzzz9Zyyy116Zzzz60Zyyy246Zzzz10Zyyy39Zzzz2",
   "Zyyy62Zinh3Zyyy17Zinh8Zyyy2Zinh7Zyyy30Zinh4Zyyy61Zzzz21Grek70Zzzz122Zyyy20Zzzz12Zyyy20Zzzz12",
   "Zyyy87Zzzz9Zyyy25Zzzz135Zyyy85Zzzz1Zyyy71Zzzz1Zyyy2Zzzz2Zyyy1Zzzz2Zyyy2Zzzz2Zyyy4Zzzz1Zyyy12",
   "Zzzz1Zyyy1Zzzz1Zyyy7Zzzz1Zyyy65Zzzz1Zyyy4Zzzz2Zyyy8Zzzz1Zyyy7Zzzz1Zyyy28Zzzz1Zyyy4Zzzz1Zyyy5",
   "Zzzz1Zyyy1Zzzz3Zyyy7Zzzz1Zyyy340Zzzz2Zyyy292Zzzz2Zyyy50Sgnw652Zzzz15Sgnw5Zzzz1Sgnw15Zzzz1104",
   "Latn31Zzzz6Latn6Zzzz213Glag7Zzzz1Glag17Zzzz2Glag7Zzzz1Glag2Zzzz1Glag5Zzzz5Cyrl62Zzzz33Cyrl1",
   "Zzzz112Hmnp45Zzzz3Hmnp14Zzzz2Hmnp10Zzzz4Hmnp2Zzzz320Toto31Zzzz17Wcho58Zzzz5Wcho1Zzzz464",
   "Nagm42Zzzz214Onao43Zzzz4Onao1Zzzz480Ethi7Zzzz1Ethi4Zzzz1Ethi2Zzzz1Ethi15Zzzz1Mend197Zzzz2",
   "Mend16Zzzz41Adlm76Zzzz4Adlm10Zzzz4Adlm2Zzzz785Zyyy68Zzzz76Zyyy61Zzzz194Arab4Zzzz1Arab27Zzzz1",
   "Arab2Zzzz1Arab1Zzzz2Arab1Zzzz1Arab10Zzzz1Arab4Zzzz1Arab1Zzzz1Arab1Zzzz6Arab1Zzzz4Arab1Zzzz1",
   "Arab1Zzzz1Arab1Zzzz1Arab3Zzzz1Arab2Zzzz1Arab1Zzzz2Arab1Zzzz1Arab1Zzzz1Arab1Zzzz1Arab1Zzzz1",
   "Arab1Zzzz1Arab2Zzzz1Arab1Zzzz2Arab4Zzzz1Arab7Zzzz1Arab4Zzzz1Arab4Zzzz1Arab1Zzzz1Arab10Zzzz1",
   "Arab17Zzzz5Arab3Zzzz1Arab5Zzzz1Arab17Zzzz52Arab2Zzzz270Zyyy44Zzzz4Zyyy100Zzzz12Zyyy15Zzzz2",
   "Zyyy15Zzzz1Zyyy15Zzzz1Zyyy37Zzzz10Zyyy174Zzzz56Zyyy26Hira1Zyyy2Zzzz13Zyyy44Zzzz4Zyyy9Zzzz7",
   "Zyyy2Zzzz14Zyyy6Zzzz154Zyyy984Zzzz4Zyyy17Zzzz3Zyyy13Zzzz3Zyyy119Zzzz4Zyyy95Zzzz6Zyyy12Zzzz4",
   "Zyyy1Zzzz15Zyyy12Zzzz4Zyyy56Zzzz8Zyyy10Zzzz6Zyyy40Zzzz8Zyyy30Zzzz2Zyyy12Zzzz4Zyyy2Zzzz62",
   "Zyyy340Zzzz12Zyyy14Zzzz2Zyyy13Zzzz3Zyyy10Zzzz5Zyyy56Zzzz7Zyyy15Zzzz2Zyyy11Zzzz6Zyyy9Zzzz7",
   "Zyyy147Zzzz1Zyyy102Zzzz1030Hani42720Zzzz32Hani4154Zzzz6Hani222Zzzz2Hani5762Zzzz14Hani7473",
   "Zzzz15Hani622Zzzz2466Hani542Zzzz1506Hani4939Zzzz5Hani4192Zzzz711761Zyyy1Zzzz30Zyyy96Zzzz128",
   "Zinh240Zzzz196112"]

/-- First code point and script of each run, in ascending order. -/
def runs : Array (Nat × String) := readRuns encodedRuns

/-- Groups of characters that are used with the scripts of the given codes, not just with their
own; the characters are written as for `CharSet.ofRuns`. -/
def extensions : List (String × List String) :=
  [("Adlm Arab",
    ["8271 1"]),
   ("Adlm Arab Gara Nkoo Rohg Syrc Thaa Yezi",
    ["1567 1"]),
   ("Adlm Arab Hung",
    ["11841 1"]),
   ("Adlm Arab Mand Mani Ougr Phlp Rohg Sogd Syrc",
    ["1600 1"]),
   ("Aghb Cher Copt Cyrl Goth Grek Latn Osge Syrc Tfng Todr",
    ["772 1"]),
   ("Aghb Cher Goth Latn Sunu Syrc Thai",
    ["817 1"]),
   ("Aghb Latn Todr",
    ["862 1"]),
   ("Arab Copt",
    ["66272 28"]),
   ("Arab Gara Nkoo Rohg Syrc Thaa Yezi",
    ["1548 1 14 1"]),
   ("Arab Nkoo",
    ["64830 2"]),
   ("Arab Rohg",
    ["1748 1"]),
   ("Arab Syrc",
    ["1611 11 26 1"]),
   ("Arab Syrc Thaa",
    ["1564 1"]),
   ("Arab Thaa",
    ["65010 1 10 1"]),
   ("Arab Thaa Yezi",
    ["1632 10"]),
   ("Armn Cyrl Dupl Goth Grek Hebr Latn Perm Syrc Tale Tfng",
    ["776 1"]),
   ("Armn Geor Glag",
    ["1417 1"]),
   ("Avst Cari Copt Dupl Elba Geor Glag Gong Goth Grek Hani Latn Lydi Mahj Perm Shaw",
    ["183 1"]),
   ("Avst Cari Geor Hung Kthi Lydi Samr",
    ["11825 1"]),
   ("Avst Orkh",
    ["11824 1"]),
   ("Beng",
    ["7415 1"]),
   ("Beng Cakm Sylo",
    ["2534 10"]),
   ("Beng Cyrl Deva Latn Lisu Thai Toto",
    ["700 1"]),
   ("Beng Deva",
    ["7393 1 19 2"]),
   ("Beng Deva Dogr Gong Gonm Gran Gujr Gukh Guru Knda Limb Mahj Mlym Nand Onao Orya Sind " ++
    "Sinh Sylo Takr Taml Telu Tirh",
    ["2405 1"]),
   ("Beng Deva Dogr Gong Gonm Gran Gujr Guru Knda Mahj Mlym Nand Onao Orya Sind Sinh Sylo " ++
    "Takr Taml Telu Tirh",
    ["2404 1"]),
   ("Beng Deva Gran Gujr Guru Knda Latn Mlym Nand Newa Orya Shrd Taml Telu Tirh",
    ["2385 1"]),
   ("Beng Deva Gran Gujr Guru Knda Latn Mlym Newa Orya Taml Telu Tirh",
    ["2386 1"]),
   ("Beng Deva Gran Knda",
    ["7376 1 1 1"]),
   ("Beng Deva Gran Knda Mlym Nand Orya Sinh Telu Tirh Tutg",
    ["7410 1"]),
   ("Beng Deva Newa Shrd",
    ["7405 1"]),
   ("Beng Deva Newa Telu",
    ["7384 1"]),
   ("Beng Deva Newa Telu Tirh",
    ["7381 1"]),
   ("Beng Deva Shrd",
    ["7402 1"]),
   ("Beng Deva Telu",
    ["7382 1"]),
   ("Beng Deva Tutg",
    ["43249 1"]),
   ("Bopo Hang Hani Hira Kana",
    ["12291 1 15 1 8 4 16 1 6 1 52749 2"]),
   ("Bopo Hang Hani Hira Kana Lisu Mong Tibt Yiii",
    ["12298 2"]),
   ("Bopo Hang Hani Hira Kana Mong Phag Yiii",
    ["12290 1"]),
   ("Bopo Hang Hani Hira Kana Mong Tibt Yiii",
    ["12296 2"]),
   ("Bopo Hang Hani Hira Kana Mong Yiii",
    ["12289 1"]),
   ("Bopo Hang Hani Hira Kana Yiii",
    ["12300 6 2 8 223 1 52837 5"]),
   ("Bopo Hani",
    ["12330 4"]),
   ("Bopo Latn",
    ["711 1 1 3 13 1"]),
   ("Bugi Java",
    ["43471 1"]),
   ("Buhd Hano Tagb Tglg",
    ["5941 2"]),
   ("Cakm Mymr Tale",
    ["4160 10"]),
   ("Cari Geor Glag Hung Lyci Orkh",
    ["8282 1"]),
   ("Cari Grek Hung Mero",
    ["8285 1"]),
   ("Cher Copt Cyrl Grek Latn Perm Sunu Tale",
    ["768 1"]),
   ("Cher Cyrl Grek Latn Osge Sunu Tale Todr",
    ["769 1"]),
   ("Cher Cyrl Latn Osge",
    ["779 1"]),
   ("Cher Cyrl Latn Tfng",
    ["770 1"]),
   ("Cher Dupl Kana Latn Syrc Tfng",
    ["803 1"]),
   ("Cher Dupl Latn Syrc",
    ["804 1"]),
   ("Cher Latn Syrc",
    ["816 1"]),
   ("Cher Latn Tale",
    ["780 1"]),
   ("Copt Dupl Hebr Latn Perm Syrc Tale Tfng Todr",
    ["775 1"]),
   ("Copt Elba Glag Goth Kana Latn",
    ["773 1"]),
   ("Copt Grek",
    ["884 2"]),
   ("Copt Latn",
    ["11799 1"]),
   ("Cpmn Cprt Linb",
    ["65792 2"]),
   ("Cprt Lina Linb",
    ["65799 45"]),
   ("Cprt Linb",
    ["65794 1 52 9"]),
   ("Cyrl Glag",
    ["1156 1 2 1 10683 1 30763 1"]),
   ("Cyrl Grek Latn Perm Tfng",
    ["774 1"]),
   ("Cyrl Latn",
    ["1157 2"]),
   ("Cyrl Latn Syrc",
    ["7672 1"]),
   ("Cyrl Latn Todr",
    ["785 1"]),
   ("Cyrl Perm",
    ["1155 1"]),
   ("Deva",
    ["7377 1 2 1 6 1 2 2 3 6 3 1 1 4"]),
   ("Deva Dogr Gujr Guru Khoj Knda Kthi Mahj Mlym Modi Nand Shrd Sind Takr Tirh Tutg",
    ["43056 3"]),
   ("Deva Dogr Gujr Guru Khoj Knda Kthi Mahj Modi Nand Shrd Sind Takr Tirh Tutg",
    ["43059 3"]),
   ("Deva Dogr Gujr Guru Khoj Kthi Mahj Modi Shrd Sind Takr Tirh",
    ["43064 1"]),
   ("Deva Dogr Gujr Guru Khoj Kthi Mahj Modi Sind Takr Tirh",
    ["43062 2 1 1"]),
   ("Deva Dogr Kthi Mahj",
    ["2406 10"]),
   ("Deva Gran",
    ["7411 1 4 2"]),
   ("Deva Gran Knda",
    ["7379 1"]),
   ("Deva Gran Knda Tutg",
    ["7412 1"]),
   ("Deva Gran Latn",
    ["8432 1"]),
   ("Deva Knda Mlym Orya Taml Telu",
    ["7386 1"]),
   ("Deva Nand Newa",
    ["7401 1"]),
   ("Deva Newa",
    ["7403 1"]),
   ("Deva Newa Shrd",
    ["7383 1"]),
   ("Deva Newa Tirh",
    ["7394 1"]),
   ("Deva Shrd",
    ["7385 1 2 2 2 1"]),
   ("Deva Taml",
    ["43251 1"]),
   ("Dupl",
    ["11836 1 101987 4"]),
   ("Dupl Latn Syrc",
    ["778 1"]),
   ("Ethi Latn",
    ["782 1"]),
   ("Geor Glag Latn",
    ["4347 1"]),
   ("Glag Latn Sunu Syrc Thai",
    ["771 1"]),
   ("Gran Taml",
    ["3046 14 67341 1 1 1 55 2 3219 2 1 1"]),
   ("Grek",
    ["834 1 2 1 6778 2"]),
   ("Grek Latn Perm Todr",
    ["787 1"]),
   ("Gujr Khoj",
    ["2790 10"]),
   ("Guru Mult",
    ["2662 10"]),
   ("Hani",
    ["12294 1 55 2 336 16 32 38 58 40 56 49 15 12 51 1 88 25 10 5 96 31 106337 18 7902 2"]),
   ("Hani Hira Kana",
    ["12348 2"]),
   ("Hani Latn",
    ["42752 8"]),
   ("Hani Tang",
    ["12272 16 495 1"]),
   ("Hira Kana",
    ["12337 5 99 4 3 1 91 1 52851 1 45 2"]),
   ("Kali Latn Mymr",
    ["43310 1"]),
   ("Knda Nand Tutg",
    ["3302 10"]),
   ("Latn",
    ["867 13"]),
   ("Latn Lisu",
    ["717 1"]),
   ("Latn Mong Phag",
    ["8239 1"]),
   ("Latn Osge",
    ["856 1"]),
   ("Latn Sunu",
    ["781 1 2 1"]),
   ("Latn Sunu Syrc",
    ["813 1"]),
   ("Latn Syrc",
    ["805 1 8 1"]),
   ("Latn Tfng",
    ["777 1"]),
   ("Latn Thai",
    ["727 1"]),
   ("Mani Ougr",
    ["68338 1"]),
   ("Mong Phag",
    ["6146 2 1 1"]),
   ("Nand",
    ["7418 1"]),
   ("Runr",
    ["5867 3"]),
   ("Syrc",
    ["7674 1"])]

/-- Characters of the script. -/
def members (code : String) : CharSet := .ofLabels (· == code) runs

/-- Characters used with the script. -/
def users (code : String) : CharSet :=
  let listed := extensions.map fun (codes, lines) => (codes, CharSet.ofRuns lines)
  let used := listed.filter fun (codes, _) => (codes.splitOn " ").contains code
  ((members code).diff (.unionAll (listed.map (·.2)))).union (.unionAll (used.map (·.2)))

/-- The code of the script with this name, if there is one. -/
def code? (name : String) : Option String :=
  (names.find? (·.2.contains name)).map (·.1)

end LexicalModes.Unicode.Script
