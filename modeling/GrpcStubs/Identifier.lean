set_option autoImplicit false

namespace GrpcStubs.Identifier

def snakeChars (afterUnderscore : Bool) : List Char → List Char
  | [] => []
  | c :: cs =>
    if c.isUpper && !afterUnderscore then '_' :: c.toLower :: snakeChars false cs
    else c.toLower :: snakeChars (c == '_') cs

/-- An underscore goes before each capital except at the start and after an underscore, and the
    capitals are lowered. -/
def snakeCase (name : String) : String :=
  .ofList (snakeChars true name.toList)

def camelChars (raised : Bool) : List Char → List Char
  | [] => []
  | c :: cs =>
    if c = '_' then camelChars true cs
    else (if raised then c.toUpper else c) :: camelChars false cs

/-- Underscores are dropped; the first character and those after an underscore are raised. -/
def upperCamelCase (name : String) : String :=
  .ofList (camelChars true name.toList)

def rawKeywords : List String :=
  ["abstract", "as", "async", "await", "become", "box", "break", "const", "continue", "do", "dyn",
   "else", "enum", "extern", "false", "final", "fn", "for", "gen", "if", "impl", "in", "let",
   "loop", "macro", "match", "mod", "move", "mut", "override", "priv", "pub", "ref", "return",
   "static", "struct", "trait", "true", "try", "type", "typeof", "unsafe", "unsized", "use",
   "virtual", "where", "while", "yield"]

def pathKeywords : List String :=
  ["self", "super", "crate", "Self"]

def plainKeywords : List String :=
  pathKeywords ++ ["_"]

def isKeyword (name : String) : Bool :=
  rawKeywords.contains name || plainKeywords.contains name

def escape (name : String) : String :=
  if plainKeywords.contains name then name ++ "_"
  else if rawKeywords.contains name then "r#" ++ name
  else name

def isStart (c : Char) : Bool :=
  c == '_' || c.isAlpha

def isContinue (c : Char) : Bool :=
  c == '_' || c.isAlphanum

/-- An ASCII letter or underscore followed by letters, digits and underscores, other than the
    underscore alone. -/
def isWord : List Char → Bool
  | [] => false
  | c :: cs => isStart c && cs.all isContinue && (c :: cs) != ['_']

def isWritten : List Char → Bool
  | 'r' :: '#' :: word => isWord word && !pathKeywords.contains (.ofList word)
  | word => isWord word && !isKeyword (.ofList word)

end GrpcStubs.Identifier
