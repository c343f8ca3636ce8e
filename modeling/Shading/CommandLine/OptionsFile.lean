import Shading.Json.Read
import Shading.Options

/-!
# Options files

Compile options in JSON: an object with a boolean for each option, or a list of booleans in the
order of the options. What is missing has its default; an object may hold other things besides. -/
namespace Shading

inductive CompileOption where
  | minify | precisionQualifiers | forceHighPrecision | emitNames
deriving DecidableEq, Repr

namespace CompileOption

def all : List CompileOption := [minify, precisionQualifiers, forceHighPrecision, emitNames]

def key : CompileOption → String
  | minify => "minify_code"
  | precisionQualifiers => "use_precision_qualifiers"
  | forceHighPrecision => "force_high_precision"
  | emitNames => "emit_names"

def ofKey? (key : String) : Option CompileOption := all.find? fun o => o.key == key

def set (options : CompileOptions) (value : Bool) : CompileOption → CompileOptions
  | minify => { options with minify := value }
  | precisionQualifiers => { options with precisionQualifiers := value }
  | forceHighPrecision => { options with forceHighPrecision := value }
  | emitNames => { options with emitNames := value }

end CompileOption

namespace CompileOptions

def ofItems? (options : CompileOptions) : List CompileOption → List Json.Value → Option CompileOptions
  | _, [] => some options
  | o :: rest, .bool b :: items => ofItems? (o.set options b) rest items
  | _, _ => none

def ofMembers? (options : CompileOptions) (seen : List CompileOption) :
    List (Option String × Json.Value) → Option CompileOptions
  | [] => some options
  | (none, _) :: _ => none
  | (some key, v) :: rest => match CompileOption.ofKey? key, v with
    | none, _ => ofMembers? options seen rest
    | some o, .bool b => if seen.contains o then none else ofMembers? (o.set options b) (o :: seen) rest
    | some _, _ => none

def ofJson? (text : String) : Option CompileOptions :=
  match Json.parse? text with
  | some (.object members) => ofMembers? {} [] members
  | some (.list items) => ofItems? {} CompileOption.all items
  | _ => none

end CompileOptions
end Shading
