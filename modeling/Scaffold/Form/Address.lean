import Scaffold.Document.Json

/-!
# Addresses

The path that the address in a request stands for. What names a scheme, a host, a query or a
fragment is left out, dots that go nowhere or up are followed, and characters that are written by
their numbers are read.
-/

namespace Scaffold

namespace Address

/-- An address without its query and its fragment. -/
def withoutQuery (address : Text) : Text := address.takeWhile fun c => !(c == '?' || c == '#')

/-- The characters of the name of a scheme. -/
def isSchemeChar (c : Char) : Bool := c.isAlphanum || c == '+' || c == '-' || c == '.'

/-- An address without a scheme: a colon, with a name that starts with a letter or without any name
in front of it. -/
def withoutScheme (address : Text) : Text :=
  let scheme := address.takeWhile isSchemeChar
  match address.drop scheme.length with
  | ':' :: rest => if scheme.head?.all Char.isAlpha then rest else address
  | _ => address

/-- An address without the host that two slashes at its start announce. -/
def withoutHost : Text → Text
  | '/' :: '/' :: rest => rest.dropWhile (· != '/')
  | address => address

/-- A path with just one slash at its start. -/
def rooted (path : Text) : Text := '/' :: path.dropWhile (· == '/')

/-- The parts of a path with each dot left out, and with two dots taking the part in front of them
along. The part in front of the first slash stays. -/
def followDots (parts : List Text) : List Text :=
  parts.foldl (fun (kept : List Text) (part : Text) =>
    if part = "." then kept
    else if part = ".." then (if kept = [[]] then kept else kept.dropLast)
    else kept ++ [part]) []

/-- A path without dots for parts. -/
def withoutDots (path : Text) : Text := Text.join "/" (followDots (path.splitOn '/'))

/-- The ASCII character that two hexadecimal digits stand for. -/
def escapedChar? (high low : Char) : Option Char := do
  let code := (← Json.hexValue? high) * 16 + (← Json.hexValue? low)
  if code < 0x80 then some (Char.ofNat code) else none

/-- A text with the ASCII characters that are written by their numbers. All other numbers stay: no
known path has such characters. -/
def unescape : Text → Text
  | '%' :: high :: low :: rest =>
    match escapedChar? high low with
    | some c => c :: unescape rest
    | none => '%' :: unescape (high :: low :: rest)
  | c :: rest => c :: unescape rest
  | [] => []

/-- The path of an address. One of which nothing is left is the root. Numbers of characters are read
when the address is taken apart, and once more when its path is looked up. -/
def path (address : Text) : Text :=
  let relative := withoutHost (withoutScheme (withoutQuery address))
  match withoutDots (rooted relative) with
  | [] => "/"
  | path => unescape (unescape path)

end Address

end Scaffold
