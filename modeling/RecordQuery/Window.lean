import RecordQuery.Error

/-!
Windows: a limit whose numbers are not negative. First elements are passed over, then at most a number of
them is kept.
-/

namespace RecordQuery

structure Window where
  skip : Nat
  take : Option Nat
  deriving DecidableEq

namespace Window

def all : Window := ⟨0, none⟩

def ofLimit (l : Limit) : Except Error Window :=
  if l.skip < 0 then .error (.negativeSkip l.skip)
  else if l.take < 0 then .error (.negativeTake l.take)
  else .ok ⟨l.skip.toInt.toNat, if l.take = 0 then none else some l.take.toInt.toNat⟩

def apply {α : Type} (w : Window) (xs : List α) : List α :=
  match w.take with
  | none => xs.drop w.skip
  | some n => (xs.drop w.skip).take n

def display (w : Window) : String :=
  "skip " ++ (Numeral.ofNat w.skip).text ++
    match w.take with
    | none => ""
    | some n => ", take " ++ (Numeral.ofNat n).text

end RecordQuery.Window
