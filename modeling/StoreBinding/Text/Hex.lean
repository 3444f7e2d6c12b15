/-!
Hexadecimal text of a fixed least width, in lower case.
-/
namespace StoreBinding.Text

def hex (width n : Nat) : String :=
  String.ofList ((Nat.toDigits 16 n).leftpad width '0')

end StoreBinding.Text
