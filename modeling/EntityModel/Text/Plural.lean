import EntityModel.Text.WordCharacter

/-!
# Plurals

The plural of an English noun. A short list of irregular nouns comes first and keeps a capital at
the start. Then come the nouns without a plural of their own, a few exceptions, and rules on how a
word ends, of which the last that fits decides; a rule looks at the last run of word characters and
what stands before that run is dropped. A word that no rule fits takes an `s`.
-/

namespace EntityModel.Text

/-- One place in a pattern. -/
inductive Place where
  | one (c : Char)
  | oneOf (letters : String)
  | noneOf (letters : String)

namespace Place

def accepts : Place → Char → Bool
  | one d, c => c == d
  | oneOf letters, c => letters.toList.contains c
  | noneOf letters, c => !letters.toList.contains c

end Place

/-- A stem that a rule asks for. -/
abbrev Stem := List Place

def Stem.ofText (text : String) : Stem := text.toList.map .one

def Stem.accepts (stem : Stem) (text : List Char) : Bool :=
  stem.length == text.length && (stem.zip text).all fun (place, c) => place.accepts c

/-- Words made of word characters and a stem, behind which one of the endings gives way to the
ending of the plural. -/
structure PluralRule where
  stems : List Stem
  endings : List String
  plural : String

namespace PluralRule

/-- The part of a word that a rule keeps, with the number of characters that it drops before. -/
def keptBy (word : List Char) (stem : Stem) (ending : String) : Option (Nat × List Char) :=
  let size := word.length - ending.length
  let lead := word.take (size - stem.length)
  let stemText := (word.take size).drop lead.length
  if word.drop size = ending.toList ∧ stem.accepts stemText then
    let run := (lead.reverse.takeWhile isWordCharacter).reverse
    some (lead.length - run.length, run ++ stemText)
  else none

/-- The longest part that the rule keeps; of equally long ones the first. -/
def kept? (rule : PluralRule) (word : List Char) : Option (List Char) :=
  let candidates := rule.stems.flatMap fun stem => rule.endings.filterMap (keptBy word stem)
  let first := candidates.foldl
    (fun best c => match best with
      | some b => if c.1 < b.1 then some c else some b
      | none => some c) none
  first.map (·.2)

def plural? (rule : PluralRule) (word : List Char) : Option String :=
  (rule.kept? word).map fun kept => String.ofList kept ++ rule.plural

def ofStems (stems : List String) (endings : List String) (plural : String) : PluralRule :=
  ⟨stems.map Stem.ofText, endings, plural⟩

end PluralRule

open Place PluralRule in
/-- The rules, the one with the least say first. -/
def pluralRules : List PluralRule :=
  [ ofStems [""] ["s"] "s",
    ⟨[[noneOf "aeiou", one 'e', one 's', one 'e']], [""], ""⟩,
    ofStems ["ax", "test"] ["is"] "es",
    ⟨[Stem.ofText "alias", [noneOf "aou", one 'u', one 's'], Stem.ofText "tlas", Stem.ofText "gas",
      Stem.ofText "ris"], [""], "es"⟩,
    ⟨[[one 'e', oneOf "mn", one 'u']], ["s", ""], "s"⟩,
    ⟨[[noneOf "l", one 'i', one 'a', one 's'], [oneOf "aeiou", one 'l', one 'a', one 's'],
      [oneOf "emjzr", one 'a', one 's'], [oneOf "iu", one 'a', one 'm']], [""], ""⟩,
    ofStems ["alumn", "syllab", "octop", "vir", "radi", "nucle", "fung", "cact", "stimul", "termin",
      "bacill", "foc", "uter", "loc", "strat"] ["us", "i"] "i",
    ofStems ["alumn", "alg", "vertebr"] ["a", "ae"] "ae",
    ofStems ["seraph", "cherub"] ["im", ""] "im",
    ofStems ["her", "at", "gr"] ["o"] "oes",
    ofStems ["agend", "addend", "millenni", "dat", "extrem", "bacteri", "desiderat", "strat",
      "candelabr", "errat", "ov", "symposi", "curricul", "automat", "quor"] ["a", "um"] "a",
    ofStems ["apheli", "hyperbat", "periheli", "asyndet", "noumen", "phenomen", "criteri", "organ",
      "prolegomen", "hedr", "automat"] ["a", "on"] "a",
    ofStems [""] ["sis"] "ses",
    ofStems ["kni", "wi", "li"] ["fe"] "ves",
    ofStems ["ar", "l", "ea", "eo", "oa", "hoo"] ["f"] "ves",
    ⟨[[noneOf "aeiouy"], Stem.ofText "qu"], ["y"], "ies"⟩,
    ⟨[[noneOf "ch", oneOf "ieo", oneOf "ln"]], ["ey"], "ies"⟩,
    ofStems ["xes", "ches", "sses", "shes", "zzes"] [""] "",
    ofStems ["x", "ch", "ss", "sh", "zz"] [""] "es",
    ofStems ["matr", "cod", "mur", "sil", "vert", "ind", "append"] ["ix", "ex"] "ices",
    ofStems ["mice", "lice", "mouse", "louse"] [""] "ice",
    ofStems ["person", "people"] [""] "ople",
    ofStems ["child"] ["ren", ""] "ren",
    ofStems ["eaux"] [""] "" ]

def uncountable : List String :=
  [ "accommodation", "adulthood", "advertising", "advice", "aggression", "aid", "air", "aircraft",
    "alcohol", "anger", "applause", "arithmetic", "assistance", "athletics", "bacon", "baggage",
    "beef", "biology", "blood", "botany", "bread", "butter", "carbon", "cardboard", "cash",
    "chalk", "chaos", "chess", "crossroads", "countryside", "dancing", "deer", "dignity", "dirt",
    "dust", "economics", "education", "electricity", "engineering", "enjoyment", "envy",
    "equipment", "ethics", "evidence", "evolution", "fame", "fiction", "flour", "flu", "food",
    "fuel", "fun", "furniture", "gallows", "garbage", "garlic", "genetics", "gold", "golf",
    "gossip", "grammar", "gratitude", "grief", "guilt", "gymnastics", "happiness", "hardware",
    "harm", "hate", "hatred", "health", "heat", "help", "homework", "honesty", "honey",
    "hospitality", "housework", "humour", "hunger", "hydrogen", "ice", "importance", "inflation",
    "information", "innocence", "iron", "irony", "jam", "jewelry", "judo", "karate", "knowledge",
    "lack", "laughter", "lava", "leather", "leisure", "lightning", "linguine", "linguini",
    "linguistics", "literature", "litter", "livestock", "logic", "loneliness", "luck", "luggage",
    "macaroni", "machinery", "magic", "management", "mankind", "marble", "mathematics",
    "mayonnaise", "measles", "methane", "milk", "money", "mud", "music", "mumps", "nature", "news",
    "nitrogen", "nonsense", "nurture", "nutrition", "obedience", "obesity", "oxygen", "pasta",
    "patience", "physics", "poetry", "pollution", "poverty", "pride", "psychology", "publicity",
    "punctuation", "quartz", "racism", "relaxation", "reliability", "research", "respect",
    "revenge", "rice", "rubbish", "rum", "safety", "scenery", "seafood", "seaside", "series",
    "shame", "sheep", "shopping", "sleep", "smoke", "smoking", "snow", "soap", "software", "soil",
    "spaghetti", "species", "steam", "stuff", "stupidity", "sunshine", "symmetry", "tennis",
    "thirst", "thunder", "timber", "traffic", "transportation", "trust", "underwear",
    "unemployment", "unity", "validity", "veal", "vegetation", "vegetarianism", "vengeance",
    "violence", "vitality", "warmth", "wealth", "weather", "welfare", "wheat", "wildlife",
    "wisdom", "yoga", "zinc", "zoology" ]

def exceptions : List (String × String) :=
  [("ox", "oxen"), ("man", "men"), ("woman", "women"), ("die", "dice"), ("yes", "yeses"),
    ("foot", "feet"), ("eave", "eaves"), ("goose", "geese"), ("tooth", "teeth"),
    ("quiz", "quizzes")]

/-- The plural by list and rule, which tell small letters from capitals. -/
def regularPlural (word : String) : String :=
  if word ∈ uncountable then word
  else
    match exceptions.find? (·.1 == word) with
    | some e => e.2
    | none => (pluralRules.reverse.findSome? (·.plural? word.toList)).getD (word ++ "s")

/-- Irregular nouns that entities are often named after, singular and plural. -/
def irregular : List (String × String) :=
  [("person", "people"), ("child", "children"), ("man", "men"), ("woman", "women"),
    ("analysis", "analyses"), ("criterion", "criteria"), ("datum", "data"), ("index", "indices"),
    ("matrix", "matrices"), ("vertex", "vertices")]

/-- The plural of a word. An irregular noun is known in either number and in any mix of capitals,
and its plural starts with a capital when the word does. Those nouns are ASCII and none of them has
a letter that the small form of another character equals, so ASCII letters are the only ones whose
case matters. -/
def pluralize (word : String) : String :=
  if word = "" then ""
  else
    let small := word.toLower
    match irregular.find? fun e => e.1 == small || e.2 == small with
    | some e => if word.front.isUpper then e.2.capitalize else e.2
    | none => regularPlural word

end EntityModel.Text
