import SqfMinifier.Text.Quoted

/-!
The resolved settings of a run.
-/

namespace SqfMinifier

structure Settings where
  stringAware : Bool
  suffix : Text
  deriving DecidableEq, Repr

namespace Settings

def default : Settings := ⟨false, "-min".toList⟩

def describe (s : Settings) : String :=
  "SqfminConfig \x7b strip: StripConfig \x7b string_aware: " ++ toString s.stringAware ++
    " \x7d, output: OutputConfig \x7b suffix: " ++ String.ofList (Text.quoted s.suffix) ++
    " \x7d \x7d"

end Settings

end SqfMinifier
