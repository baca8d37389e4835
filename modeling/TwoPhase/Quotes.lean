import TwoPhase.Computation
import TwoPhase.Route.Router
import TwoPhase.Variable.Coercion

/-
A small site to try the rest on: its page shows how many quotes there are and includes one of
them, picked anew for each request. The pick depends on the count, so the fragment declares
it with an expectation. The pick is the seed in the request's metadata modulo the limit.
-/
namespace TwoPhase.Quotes

def quotes : List String := [
  "Simplicity is prerequisite for reliability.",
  "Premature optimization is the root of all evil.",
  "Talk is cheap. Show me the code.",
  "There are only two hard things in computer science."]

def countPath : String := "quotes.count"
def pickPath : String := "quotes.pick"
def tokenPath : String := "quotes.csrf_token"

/-- The metadata that the pick is seeded from. -/
def seedName : String := "seed"

def tokenName : String := "csrf"

def count : Variable := .ofPath countPath

def pick (limit : Arg) : Variable := (Variable.ofPath pickPath).setNamed "limit" limit

def token : Variable := .ofPath tokenPath

def message {α : Type} (text : String) : Except Failure α := .error ⟨.other text, []⟩

/-- Reads digits one by one; the first that is none, or does not fit 64 bits, is reported. -/
def readWord (text : String) : Except Failure Nat :=
  let digits := match text.toList with
    | '+' :: rest => if rest.isEmpty then ['+'] else rest
    | digits => digits
  if digits.isEmpty then message "cannot parse integer from empty string"
  else
    digits.foldlM (fun value digit =>
      if !digit.isDigit then message "invalid digit found in string"
      else
        let next := value * 10 + (digit.toNat - '0'.toNat)
        if next < Nat.pow 2 64 then .ok next
        else message "number too large to fit in target type") 0

def natural? : Json → Option Nat
  | .int i => if 0 ≤ i.value then some i.value.toNat else none
  | _ => none

def computePick : Computation := fun ctx _ named => do
  match ((Entries.get? "limit" named).bind natural?).filter (0 < ·) with
  | none => message (pickPath ++ " needs a positive integer limit")
  | some limit =>
    let seed ← (ctx.metadata.get? seedName).elim (.ok 0) readWord
    return (Json.ofInt? (seed % limit : Nat)).getD .null

def registry : Registry :=
  Registry.register (Registry.register (Registry.register {} countPath
    fun _ _ _ => .ok ((Json.ofInt? quotes.length).getD .null))
    pickPath computePick)
    tokenPath fun ctx _ _ => .ok (.str ((ctx.metadata.get? tokenName).getD ""))

def quoteView : View := fun ctx arguments =>
  let number := (arguments.get? "number").getD ""
  match (readWord number).toOption.bind (quotes[·]?) with
  | none => (message ("No quote number " ++ number), ctx)
  | some text =>
    (.ok ("<blockquote lang='" ++ ctx.language.getD "" ++ "'>" ++ text ++ "</blockquote>"), ctx)

def randomQuoteView : View := fun ctx arguments =>
  let limit := (arguments.get? "limit").getD ""
  match Arg.expectAs .int (.str limit) with
  | .error failure => (.error failure, ctx)
  | .ok arg =>
    (.ok ("<p>Quote " ++ (pick arg).echo ++ " of " ++ limit ++ "</p>"), ctx.need (pick arg))

def declareRandomQuote : Declaration := fun arguments =>
  match arguments.get? "limit" with
  | none => message "limit is required"
  | some limit => (limit.expectAs .int).map fun arg => [pick arg]

def formView : View := fun ctx _ =>
  (.ok ("<form><input name='csrf' value='" ++ token.echo ++ "'></form>"), ctx.need token)

def router (caches : CacheSet) : Router :=
  let empty : Router := { languages := ["en", "pl"], caches }
  ((empty.addRoute "quote" "/\x7blang\x7d/quote/\x7bnumber\x7d/" { view := quoteView }).addRoute
    "random_quote" "/\x7blang\x7d/random-quote/\x7blimit\x7d/"
      { view := randomQuoteView, declares := some declareRandomQuote }).addRoute
    "csrf_form" "/form/"
      { view := formView, declares := some fun _ => .ok [token], usesLanguage := false }

def english : RequestContext where
  path := "/"
  language := some "en"

def page (router : Router) (ctx : RequestContext) : Except Failure String × RequestContext :=
  let (included, ctx) := router.includeRoute (ctx.need count) "random_quote"
    (.ofList [("limit", .nested count)])
  (included.map fun quote => "<h1>" ++ count.echo ++ " quotes</h1>" ++ quote, ctx)

end TwoPhase.Quotes
