/-!
# Names of Unicode properties

The properties and values that a regular expression may name in `\p`, each by its long name and its
short ones. A name is matched as it is written, with case and underscores.
-/

namespace Estree.Regex

/-- The values of `General_Category`. -/
def generalCategories : List String :=
  ["Cased_Letter", "LC", "Close_Punctuation", "Pe", "Connector_Punctuation", "Pc", "Control", "Cc",
   "cntrl", "Currency_Symbol", "Sc", "Dash_Punctuation", "Pd", "Decimal_Number", "Nd", "digit",
   "Enclosing_Mark", "Me", "Final_Punctuation", "Pf", "Format", "Cf", "Initial_Punctuation", "Pi",
   "Letter", "L", "Letter_Number", "Nl", "Line_Separator", "Zl", "Lowercase_Letter", "Ll", "Mark",
   "M", "Combining_Mark", "Math_Symbol", "Sm", "Modifier_Letter", "Lm", "Modifier_Symbol", "Sk",
   "Nonspacing_Mark", "Mn", "Number", "N", "Open_Punctuation", "Ps", "Other", "C", "Other_Letter",
   "Lo", "Other_Number", "No", "Other_Punctuation", "Po", "Other_Symbol", "So",
   "Paragraph_Separator", "Zp", "Private_Use", "Co", "Punctuation", "P", "punct", "Separator", "Z",
   "Space_Separator", "Zs", "Spacing_Mark", "Mc", "Surrogate", "Cs", "Symbol", "S",
   "Titlecase_Letter", "Lt", "Unassigned", "Cn", "Uppercase_Letter", "Lu"]

/-- The values of `Script` and `Script_Extensions` in Unicode 15.1. -/
def scripts : List String :=
  ["Adlm", "Adlam", "Ahom", "Hluw", "Anatolian_Hieroglyphs", "Arab", "Arabic", "Armn", "Armenian",
   "Avst", "Avestan", "Bali", "Balinese", "Bamu", "Bamum", "Bass", "Bassa_Vah", "Batk", "Batak",
   "Beng", "Bengali", "Bhks", "Bhaiksuki", "Bopo", "Bopomofo", "Brah", "Brahmi", "Brai", "Braille",
   "Bugi", "Buginese", "Buhd", "Buhid", "Cans", "Canadian_Aboriginal", "Cari", "Carian", "Aghb",
   "Caucasian_Albanian", "Cakm", "Chakma", "Cham", "Cher", "Cherokee", "Chrs", "Chorasmian", "Zyyy",
   "Common", "Copt", "Coptic", "Qaac", "Xsux", "Cuneiform", "Cprt", "Cypriot", "Cpmn",
   "Cypro_Minoan", "Cyrl", "Cyrillic", "Dsrt", "Deseret", "Deva", "Devanagari", "Diak",
   "Dives_Akuru", "Dogr", "Dogra", "Dupl", "Duployan", "Egyp", "Egyptian_Hieroglyphs", "Elba",
   "Elbasan", "Elym", "Elymaic", "Ethi", "Ethiopic", "Geor", "Georgian", "Glag", "Glagolitic",
   "Goth", "Gothic", "Gran", "Grantha", "Grek", "Greek", "Gujr", "Gujarati", "Gong",
   "Gunjala_Gondi", "Guru", "Gurmukhi", "Hani", "Han", "Hang", "Hangul", "Rohg", "Hanifi_Rohingya",
   "Hano", "Hanunoo", "Hatr", "Hatran", "Hebr", "Hebrew", "Hira", "Hiragana", "Armi",
   "Imperial_Aramaic", "Zinh", "Inherited", "Qaai", "Phli", "Inscriptional_Pahlavi", "Prti",
   "Inscriptional_Parthian", "Java", "Javanese", "Kthi", "Kaithi", "Knda", "Kannada", "Kana",
   "Katakana", "Kawi", "Kali", "Kayah_Li", "Khar", "Kharoshthi", "Kits", "Khitan_Small_Script",
   "Khmr", "Khmer", "Khoj", "Khojki", "Sind", "Khudawadi", "Laoo", "Lao", "Latn", "Latin", "Lepc",
   "Lepcha", "Limb", "Limbu", "Lina", "Linear_A", "Linb", "Linear_B", "Lisu", "Lyci", "Lycian",
   "Lydi", "Lydian", "Mahj", "Mahajani", "Maka", "Makasar", "Mlym", "Malayalam", "Mand", "Mandaic",
   "Mani", "Manichaean", "Marc", "Marchen", "Gonm", "Masaram_Gondi", "Medf", "Medefaidrin", "Mtei",
   "Meetei_Mayek", "Mend", "Mende_Kikakui", "Merc", "Meroitic_Cursive", "Mero",
   "Meroitic_Hieroglyphs", "Plrd", "Miao", "Modi", "Mong", "Mongolian", "Mroo", "Mro", "Mult",
   "Multani", "Mymr", "Myanmar", "Nbat", "Nabataean", "Nagm", "Nag_Mundari", "Nand", "Nandinagari",
   "Talu", "New_Tai_Lue", "Newa", "Nkoo", "Nko", "Nshu", "Nushu", "Hmnp", "Nyiakeng_Puachue_Hmong",
   "Ogam", "Ogham", "Olck", "Ol_Chiki", "Hung", "Old_Hungarian", "Ital", "Old_Italic", "Narb",
   "Old_North_Arabian", "Perm", "Old_Permic", "Xpeo", "Old_Persian", "Sogo", "Old_Sogdian", "Sarb",
   "Old_South_Arabian", "Orkh", "Old_Turkic", "Ougr", "Old_Uyghur", "Orya", "Oriya", "Osge",
   "Osage", "Osma", "Osmanya", "Hmng", "Pahawh_Hmong", "Palm", "Palmyrene", "Pauc", "Pau_Cin_Hau",
   "Phag", "Phags_Pa", "Phnx", "Phoenician", "Phlp", "Psalter_Pahlavi", "Rjng", "Rejang", "Runr",
   "Runic", "Samr", "Samaritan", "Saur", "Saurashtra", "Shrd", "Sharada", "Shaw", "Shavian", "Sidd",
   "Siddham", "Sgnw", "SignWriting", "Sinh", "Sinhala", "Sogd", "Sogdian", "Sora", "Sora_Sompeng",
   "Soyo", "Soyombo", "Sund", "Sundanese", "Sylo", "Syloti_Nagri", "Syrc", "Syriac", "Tglg",
   "Tagalog", "Tagb", "Tagbanwa", "Tale", "Tai_Le", "Lana", "Tai_Tham", "Tavt", "Tai_Viet", "Takr",
   "Takri", "Taml", "Tamil", "Tnsa", "Tangsa", "Tang", "Tangut", "Telu", "Telugu", "Thaa", "Thaana",
   "Thai", "Tibt", "Tibetan", "Tfng", "Tifinagh", "Tirh", "Tirhuta", "Toto", "Ugar", "Ugaritic",
   "Vaii", "Vai", "Vith", "Vithkuqi", "Wcho", "Wancho", "Wara", "Warang_Citi", "Yezi", "Yezidi",
   "Yiii", "Yi", "Zanb", "Zanabazar_Square"]

/-- The properties that a character has or has not. -/
def binaryProperties : List String :=
  ["ASCII", "ASCII_Hex_Digit", "AHex", "Alphabetic", "Alpha", "Any", "Assigned", "Bidi_Control",
   "Bidi_C", "Bidi_Mirrored", "Bidi_M", "Case_Ignorable", "CI", "Cased", "Changes_When_Casefolded",
   "CWCF", "Changes_When_Casemapped", "CWCM", "Changes_When_Lowercased", "CWL",
   "Changes_When_NFKC_Casefolded", "CWKCF", "Changes_When_Titlecased", "CWT",
   "Changes_When_Uppercased", "CWU", "Dash", "Default_Ignorable_Code_Point", "DI", "Deprecated",
   "Dep", "Diacritic", "Dia", "Emoji", "Emoji_Component", "EComp", "Emoji_Modifier", "EMod",
   "Emoji_Modifier_Base", "EBase", "Emoji_Presentation", "EPres", "Extended_Pictographic",
   "ExtPict", "Extender", "Ext", "Grapheme_Base", "Gr_Base", "Grapheme_Extend", "Gr_Ext",
   "Hex_Digit", "Hex", "IDS_Binary_Operator", "IDSB", "IDS_Trinary_Operator", "IDST", "ID_Continue",
   "IDC", "ID_Start", "IDS", "Ideographic", "Ideo", "Join_Control", "Join_C",
   "Logical_Order_Exception", "LOE", "Lowercase", "Lower", "Math", "Noncharacter_Code_Point",
   "NChar", "Pattern_Syntax", "Pat_Syn", "Pattern_White_Space", "Pat_WS", "Quotation_Mark", "QMark",
   "Radical", "Regional_Indicator", "RI", "Sentence_Terminal", "STerm", "Soft_Dotted", "SD",
   "Terminal_Punctuation", "Term", "Unified_Ideograph", "UIdeo", "Uppercase", "Upper",
   "Variation_Selector", "VS", "White_Space", "space", "XID_Continue", "XIDC", "XID_Start", "XIDS"]

/-- The properties that a sequence of characters has or has not. -/
def sequenceProperties : List String :=
  ["Basic_Emoji", "Emoji_Keycap_Sequence", "RGI_Emoji_Modifier_Sequence", "RGI_Emoji_Flag_Sequence",
   "RGI_Emoji_Tag_Sequence", "RGI_Emoji_ZWJ_Sequence", "RGI_Emoji"]

/-- What a property matches. -/
inductive PropertyDomain where
  | characters
  | sequences
  deriving DecidableEq, Repr

/-- What the property of a lone name matches, if there is one of that name. -/
def loneProperty? (name : String) : Option PropertyDomain :=
  if generalCategories.contains name || binaryProperties.contains name then some .characters
  else if sequenceProperties.contains name then some .sequences
  else none

/-- Whether a property has a value of this name. -/
def hasValue (name value : String) : Bool :=
  match name with
  | "General_Category" | "gc" => generalCategories.contains value
  | "Script" | "sc" | "Script_Extensions" | "scx" => scripts.contains value
  | _ => false

end Estree.Regex
