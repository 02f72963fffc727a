namespace ClusterRegistration.Registration

def isSeparator (c : Char) : Bool :=
  c == '-' || c == '.'

def nameChar (c : Char) : Char :=
  let c := c.toLower
  if c.isLower || c.isDigit || isSeparator c then c else '-'

def squeeze : Bool → List Char → List Char
  | _, [] => []
  | after, c :: cs => if isSeparator c && after then squeeze true cs else c :: squeeze (isSeparator c) cs

def dropTrailingSeparators (cs : List Char) : List Char :=
  (cs.reverse.dropWhile isSeparator).reverse

def maxNameLength : Nat := 253

def defaultName (context : String) : String :=
  let cs := squeeze true (context.toList.map nameChar)
  String.ofList (dropTrailingSeparators (cs.take maxNameLength))

end ClusterRegistration.Registration
