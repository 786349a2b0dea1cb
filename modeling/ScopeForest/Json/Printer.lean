import ScopeForest.Json.Basic
import ScopeForest.Text.Decimal

namespace ScopeForest.Json

def hexPair (n : Nat) : List Char :=
  [Nat.digitChar (n / 16 % 16), Nat.digitChar (n % 16)]

def escapeChar (c : Char) : List Char :=
  if c = '"' then ['\\', '"']
  else if c = '\\' then ['\\', '\\']
  else if c = '\n' then ['\\', 'n']
  else if c = '\r' then ['\\', 'r']
  else if c = '\t' then ['\\', 't']
  else if c.toNat = 8 then ['\\', 'b']
  else if c.toNat = 12 then ['\\', 'f']
  else if c.toNat < 32 then '\\' :: 'u' :: '0' :: '0' :: hexPair c.toNat
  else [c]

def stringChars (s : String) : List Char :=
  '"' :: s.toList.flatMap escapeChar ++ ['"']

mutual

def chars : Json → List Char
  | null => ['n', 'u', 'l', 'l']
  | bool true => ['t', 'r', 'u', 'e']
  | bool false => ['f', 'a', 'l', 's', 'e']
  | nat n => Nat.toDigits 10 n
  | number lexeme => lexeme.toList
  | str s => stringChars s
  | arr [] => ['[', ']']
  | arr (v :: vs) => '[' :: (v.chars ++ itemsChars vs)
  | obj [] => ['\x7b', '\x7d']
  | obj ((k, v) :: fs) => '\x7b' :: (stringChars k ++ ':' :: (v.chars ++ fieldsChars fs))
  | garbled => ['n', 'u', 'l', 'l']

def itemsChars : List Json → List Char
  | [] => [']']
  | v :: vs => ',' :: (v.chars ++ itemsChars vs)

def fieldsChars : List (String × Json) → List Char
  | [] => ['\x7d']
  | (k, v) :: fs => ',' :: (stringChars k ++ ':' :: (v.chars ++ fieldsChars fs))

end

def text (v : Json) : String := String.ofList v.chars

end ScopeForest.Json
