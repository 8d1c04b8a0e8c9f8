import Mathlib.Data.List.Infix

/-!
# Text functions of the daemon

The string functions of the task builder and of the client, on the characters of a string: those of
the standard library (`strings.Cut`, `strings.TrimSpace`, `netip.ParseAddr`, `path/filepath`), and
the splitting of startup arguments.
-/

namespace CloudProbe.Daemon

/-- The text before and after the first `://`.
Source: `strings.Cut(_, "://")`, and `strings.Index(_, "://")` with what follows it -/
def cutScheme : List Char → Option (List Char × List Char)
  | [] => none
  | c :: rest =>
    if "://".toList <+: c :: rest then some ([], (c :: rest).drop 3)
    else (cutScheme rest).map fun parts => (c :: parts.1, parts.2)

theorem cutScheme_unix (rest : List Char) :
    cutScheme ("unix://".toList ++ rest) = some ("unix".toList, rest) := by
  simp [cutScheme]

/-- Source: `unicode.IsSpace` -/
def isSpace (c : Char) : Bool :=
  [0x09, 0x0a, 0x0b, 0x0c, 0x0d, 0x20, 0x85, 0xa0, 0x1680, 0x2028, 0x2029, 0x202f, 0x205f,
    0x3000].contains c.toNat || (0x2000 ≤ c.toNat && c.toNat ≤ 0x200a)

/-- Nothing is left of the text when the space around it is cut off.
Source: `strings.TrimSpace(_) == ""` -/
def isBlank (s : String) : Bool := s.toList.all isSpace

/-- A decimal octet: digits, no leading zero, at most 255.
Source: `netip.ParseAddr`, one field of an IPv4 address -/
def isOctet (digits : List Char) : Bool :=
  digits ≠ [] && digits.all Char.isDigit && (digits.length = 1 || digits.head? ≠ some '0') &&
    digits.foldl (fun n c => 10 * n + (c.toNat - 48)) 0 ≤ 255

/-- Source: `netip.ParseAddr` without an error and `Addr.Is4` -/
def isIPv4 (address : String) : Bool :=
  let fields := address.toList.splitOn '.'
  fields.length = 4 && fields.all isOctet

/-- One path element after the elements kept so far, the last one first.
Source: `filepath.Clean`, the body of its loop -/
def cleanElement (rooted : Bool) (kept : List (List Char)) (element : List Char) :
    List (List Char) :=
  if element = [] ∨ element = ".".toList then kept
  else if element = "..".toList then
    match kept with
    | [] => if rooted then [] else [element]
    | last :: before => if last = "..".toList then element :: kept else before
  else element :: kept

/-- Source: `filepath.Clean` on a system with `/` as its separator -/
def cleanPath (path : List Char) : List Char :=
  let rooted := path.head? = some '/'
  let kept := ((path.splitOn '/').foldl (cleanElement rooted) []).reverse
  let body := (kept.intersperse "/".toList).flatten
  if rooted then '/' :: body else if body = [] then ".".toList else body

/-- Source: `filepath.Dir` -/
def dirPath (path : List Char) : List Char :=
  cleanPath (path.reverse.dropWhile (· ≠ '/')).reverse

/-- Source: `filepath.Join` -/
def joinPath (elements : List String) : String :=
  match (elements.map String.toList).dropWhile (· = []) with
  | [] => ""
  | rest => String.ofList (cleanPath (rest.intersperse "/".toList).flatten)

def singleQuote : Char := Char.ofNat 39
def doubleQuote : Char := Char.ofNat 34
def backslash : Char := Char.ofNat 92

/-- The loop of the split: the arguments read so far, the current one and the open quote.
Source: `cpm/utils.go` `splitArgs` -/
def splitArgsLoop (args : List (List Char)) (currentArg : List Char) :
    Option Char → List Char → Except String (List (List Char))
  | none, [] => .ok (if currentArg = [] then args else args ++ [currentArg])
  | some _, [] => .error "unclosed quote"
  | some quote, c :: rest =>
    if c = backslash then splitArgsLoop args currentArg (some quote) rest
    else if c = quote then splitArgsLoop args currentArg none rest
    else splitArgsLoop args (currentArg ++ [c]) (some quote) rest
  | none, c :: rest =>
    if c = singleQuote ∨ c = doubleQuote then splitArgsLoop args currentArg (some c) rest
    else if c = ' ' then
      if currentArg = [] then splitArgsLoop args [] none rest
      else splitArgsLoop (args ++ [currentArg]) [] none rest
    else splitArgsLoop args (currentArg ++ [c]) none rest

/-- Source: `cpm/utils.go` `splitArgs` -/
def splitArgs (input : String) : Except String (List String) :=
  (splitArgsLoop [] [] none input.toList).map fun args => args.map String.ofList

/-- Source: `cpm/utils.go` `isUnknownFlagError` -/
def isUnknownFlagError (err : String) : Bool := decide ("unknown flag".toList <:+: err.toList)

/-- A container id with its interfaces, `_` between them; without any, `eth0` is meant. The id may
have a scheme.
Source: `cpm/worker_task_builder.go` `decodeContainerId` -/
def decodeContainerId (containerId : String) : String × List String :=
  match (containerId.toList.splitOn '_').filter (· ≠ []) with
  | [] => ("", [])
  | id :: nics =>
    (String.ofList (((cutScheme id).map Prod.snd).getD id),
      if nics = [] then ["eth0"] else nics.map String.ofList)

end CloudProbe.Daemon
