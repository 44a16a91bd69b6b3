import ComponentCatalog.Number.Binary

/-!
Doubles with a fixed number of decimal places.
-/
namespace ComponentCatalog.Number

/-- The digits of `n`, at least `width` of them. -/
def padded (width n : Nat) : Text :=
  let digits := natText n
  List.replicate (width - digits.length) '0' ++ digits

/-- The magnitude of a finite double with so many decimal places; a half goes to the even
neighbour. -/
def fixedText (places : Nat) (x : Float) : Text :=
  let (m, e) := magnitude x
  let (num, den) := scaleByPower 2 m e
  let unit := Nat.pow 10 places
  let scaled := roundQuotient (num * unit) den
  let whole := natText (scaled / unit)
  if places = 0 then whole else whole ++ '.' :: padded places (scaled % unit)

end ComponentCatalog.Number
