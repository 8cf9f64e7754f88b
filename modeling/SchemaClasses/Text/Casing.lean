import SchemaClasses.Text.CaseMap

/-!
# First letters

Names of classes, properties and parameters differ from their sources in the case of the first
character only; the rest of the text is never touched.  Upper and lower case are taken in full,
so one character may become several.
-/

namespace SchemaClasses.Text

def upperChar (c : Char) : List Char :=
  if c.toNat < 128 then [c.toUpper] else upperMap.apply c

def lowerChar (c : Char) : List Char :=
  if c.toNat < 128 then [c.toLower] else lowerMap.apply c

def mapFirst (f : Char → List Char) : List Char → List Char
  | [] => []
  | c :: rest => f c ++ rest

@[simp] theorem mapFirst_nil (f : Char → List Char) : mapFirst f [] = [] := rfl

@[simp] theorem mapFirst_cons (f : Char → List Char) (c : Char) (rest : List Char) :
    mapFirst f (c :: rest) = f c ++ rest := rfl

def upperFirst (s : String) : String := String.ofList (mapFirst upperChar s.toList)

def lowerFirst (s : String) : String := String.ofList (mapFirst lowerChar s.toList)

def instanceVariable (className : String) : String := "$" ++ lowerFirst className

end SchemaClasses.Text
