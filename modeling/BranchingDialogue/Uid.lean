import BranchingDialogue.Number.Numeral

/-! Identifiers: natural numbers written with 64 symbols, the most significant first. -/
namespace BranchingDialogue

/-- Why an identifier cannot be made or read. -/
inductive UidError
  | negative (value : Int)
  | illegalSymbol (symbol : Char) (uid : String)
  | counterOverflow
  | notWhole (milliseconds : Number)
  deriving DecidableEq, Repr

def UidError.message : UidError → String
  | .negative v => "Cannot encode negative UID value " ++ toString v
  | .illegalSymbol c uid => "Illegal character \"" ++ String.ofList [c] ++ "\" in UID " ++ uid
  | .counterOverflow => "UID counter overflow in the same millisecond."
  | .notWhole x =>
    "The number " ++ x.text ++ " cannot be converted to a BigInt because it is not an integer"

namespace Uid

/-- The symbols in the order of their values. -/
def alphabet : List Char :=
  "_ABCDEFGHIJKLMNOPQRSTUVWXYZabcdefghijklmnopqrstuvwxyz0123456789$".toList

def symbol (value : Nat) : Char := alphabet.getD value '_'

def value? (c : Char) : Option Nat := alphabet.idxOf? c

/-- The symbols of a number without needless zeros in front; zero itself has one symbol. -/
def symbols (n : Nat) : List Char :=
  if n < 64 then [symbol n] else symbols (n / 64) ++ [symbol (n % 64)]

def ofNat (n : Nat) : String := String.ofList (symbols n)

def encode : Int → Except UidError String
  | .ofNat n => .ok (ofNat n)
  | v => .error (.negative v)

/-- Reads symbols after some that have the value `high`. -/
def decodeFrom (uid : String) (high : Nat) : List Char → Except UidError Nat
  | [] => .ok high
  | c :: cs =>
    match value? c with
    | some v => decodeFrom uid (high * 64 + v) cs
    | none => .error (.illegalSymbol c uid)

/-- The number of an identifier. The empty one has the number zero. -/
def decode (uid : String) : Except UidError Nat := decodeFrom uid 0 uid.toList

example : alphabet.length = 64 ∧ alphabet.Nodup := by decide +kernel
example : (symbols 4096, symbols 63) = (['A', '_', '_'], ['$']) := by decide +kernel

end Uid
end BranchingDialogue
