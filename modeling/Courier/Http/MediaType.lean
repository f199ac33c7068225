/-!
Media types, as far as it takes to tell JSON from the rest: `type/subtype`, where a subtype may
end in a suffix after a plus sign, then parameters.
-/

namespace Courier.Http.MediaType

def isToken (c : Char) : Bool := c.isAlphanum || "!#$%&'+-.^_|~\x60".toList.contains c

def lower (cs : List Char) : String := String.ofList (cs.map Char.toLower)

/-- Parameters after a semicolon; `true` when they are well formed. -/
def parametersOk : Nat → List Char → Bool
  | 0, _ => false
  | _, [] => true
  | fuel + 1, cs =>
    match cs.dropWhile (· = ' ') with
    | [] => true
    | cs =>
      let name := cs.takeWhile isToken
      match cs.dropWhile isToken with
      | '=' :: '"' :: rest =>
        if name.isEmpty then false
        else
          match rest.dropWhile (· ≠ '"') with
          | '"' :: rest =>
            match rest.dropWhile (· = ' ') with
            | [] => true
            | ';' :: rest => parametersOk fuel rest
            | _ => false
          | _ => false
      | '=' :: rest =>
        if name.isEmpty then false
        else
          match rest.dropWhile isToken with
          | [] => true
          | ';' :: more => if (rest.takeWhile isToken).isEmpty then false else parametersOk fuel more
          | _ => false
      | _ => false

/-- A subtype in front of its last plus sign, and the suffix after it. A plus sign that comes first
is part of the name. -/
def splitSuffix : List Char → List Char × Option (List Char)
  | [] => ([], none)
  | c :: cs =>
    let tail := (cs.reverse.takeWhile (· ≠ '+')).reverse
    if tail.length < cs.length then
      (c :: cs.take (cs.length - tail.length - 1), some tail)
    else (c :: cs, none)

/-- Whether a content type announces JSON. -/
def isJson (s : String) : Bool :=
  let cs := s.toList
  let kind := cs.takeWhile isToken
  match cs.dropWhile isToken with
  | '/' :: rest =>
    let sub := rest.takeWhile isToken
    let (name, suffix) := splitSuffix sub
    let named := lower kind = "application" &&
      (lower name = "json" || suffix.any fun x => lower x = "json")
    match rest.dropWhile isToken with
    | [] => named
    | ';' :: more => named && parametersOk (more.length + 1) more
    | _ => false
  | _ => false

end Courier.Http.MediaType
