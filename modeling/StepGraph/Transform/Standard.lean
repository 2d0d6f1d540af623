import StepGraph.Transform.Arithmetic
import StepGraph.Transform.Collections
import StepGraph.Transform.Logic
import StepGraph.Transform.Objects
import StepGraph.Transform.Registry

/-!
# The standard functions

The registry that graphs are run with unless another one is given.
-/
namespace StepGraph.Registry

variable {σ : Type}

/-- A function of its parameters alone. -/
def pureFunction (function : Value → Result) (params : Value) (host : σ) : Reply σ Value :=
  ⟨function params, [], host⟩

/-- Round an amount to hundredths; anything but a number is passed on with a warning. -/
def roundCurrency (params : Value) (host : σ) : Reply σ Value :=
  let amount := Parameters.value params "amt"
  match amount.double? with
  | some double => ⟨Arithmetic.hundredths double, [], host⟩
  | none => ⟨.ok amount, [.unroundable amount], host⟩

/-- The standard functions of their parameters alone. -/
def pureFunctions : List (String × (Value → Result)) :=
  [("add", Arithmetic.add), ("sub", Arithmetic.sub), ("addFactor", Arithmetic.addFactor),
    ("subFactor", Arithmetic.subFactor), ("mult", Arithmetic.mult), ("div", Arithmetic.div),
    ("round", Arithmetic.round), ("ceil", Arithmetic.ceil), ("floor", Arithmetic.floor),
    ("max", Arithmetic.max), ("min", Arithmetic.min), ("clamp", Arithmetic.clamp),
    ("addN", Arithmetic.addN), ("andN", Logic.andN), ("orN", Logic.orN), ("not", Logic.not),
    ("ternary", Logic.ternary), ("gt", Logic.gt), ("lt", Logic.lt), ("gte", Logic.gte),
    ("lte", Logic.lte), ("eq", Logic.eq), ("includes", Logic.includes),
    ("isNonEmptyString", Logic.isNonEmptyString), ("isNull", Logic.isNull),
    ("concat", Collections.concat), ("concatArrays", Collections.concatArrays),
    ("filter", Collections.filter), ("filterNot", Collections.filterNot),
    ("find", Collections.find), ("pick", Objects.pick), ("omit", Objects.without),
    ("merge", Objects.merge), ("box", Objects.box), ("addProp", Objects.addProp)]

/-- The registry of the standard functions. -/
def standard : Registry σ :=
  ⟨Dictionary.ofList
    (pureFunctions.map (fun named => (named.1, .plain (pureFunction named.2))) ++
      [("roundCurrency", .plain roundCurrency), ("map", .composite .map),
        ("vectorOp", .composite .vectorOp)])⟩

end StepGraph.Registry
