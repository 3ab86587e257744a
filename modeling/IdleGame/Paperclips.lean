import IdleGame.Game

/-!
# A game about paper clips

Clips are made from wire, by hand or by machines, and shipped to a market whose demand falls with
the price. The money buys wire and machines.

## Main definitions

* `paperclips` - the game
-/

namespace IdleGame.Paperclips

/-- A number as it stands. -/
def num (x : Float) : Expr := .lit (.number x)

/-- The negation of a number. -/
def minus (e : Expr) : Expr := .arithmetic .sub [num 0.0, e]

/-- The declaration of a number. -/
def number (id : String) (initial : Float) (precision : Option Nat) : VarDecl where
  id
  initial := some (.number initial)
  precision

/-- The state variables. -/
def declarations : List VarDecl :=
  [number "clips" 0.0 (some 0), number "unsold" 0.0 (some 0), number "wire" 1000.0 (some 0),
    number "wire_cost" 15.0 (some 2), number "funds" 0.0 (some 2), number "price" 0.25 (some 2),
    number "demand" 0.0 (some 2), number "sentiment" 1.0 (some 2), number "marketing" 0.0 none,
    number "autoclippers" 0.0 none, number "autoclipper_cost" 5.0 (some 2),
    number "clipper_rate" 1.0 (some 2), number "batch" 0.0 none, number "shipping" 0.0 none,
    { id := "stage", kind := .string, initial := some (.string "garage") }]

/-- The phases, by the number of clips made. -/
def phases : List Phase :=
  [{ id := "garage"
     name := "Garage"
     trigger := .comparison .lt (.ref "clips") (num 1000.0)
     onEnter := [.message "You have a spool of wire and an idea." .info] },
   { id := "business"
     name := "Business"
     trigger := .all [.comparison .gte (.ref "clips") (num 1000.0),
       .comparison .lt (.ref "clips") (num 50000.0)]
     onEnter := [.set "stage" (.lit (.string "business")),
       .message "\x7bclips\x7d clips made. This is a business now." .success] },
   { id := "empire"
     name := "Empire"
     trigger := .comparison .gte (.ref "clips") (num 50000.0)
     onEnter := [.set "stage" (.lit (.string "empire")),
       .message "The world runs on your clips." .success,
       .emit "milestone" [("clips", .ref "clips")]] }]

/-- The market, the machines and the shipments. -/
def rules : List Rule :=
  [{ id := "demand"
     actions := [.set "demand" (.arithmetic .div [.arithmetic .mul [num 0.8, .ref "sentiment",
       .pow (num 1.1) (.ref "marketing")], .ref "price"])] },
   { id := "autoclippers"
     timing := .second
     condition := .all [.comparison .gt (.ref "autoclippers") (num 0.0),
       .comparison .gte (.ref "wire") (num 1.0)]
     actions := [
       .set "batch" (.rounding .floor (.arithmetic .min
         [.arithmetic .mul [.ref "autoclippers", .ref "clipper_rate"], .ref "wire"])),
       .add "clips" (.ref "batch"), .add "unsold" (.ref "batch"),
       .add "wire" (minus (.ref "batch"))] },
   { id := "ship"
     timing := .second
     condition := .comparison .gte (.ref "unsold") (num 1.0)
     actions := [
       .set "shipping" (.rounding .floor (.arithmetic .min [.ref "unsold",
         .arithmetic .max [num 1.0, .arithmetic .mul [.ref "demand", num 10.0]]])),
       .spawn "shipment" [("clips", .ref "shipping"), ("price", .ref "price"), ("eta", num 2.0)],
       .add "unsold" (minus (.ref "shipping"))] },
   { id := "deliver"
     timing := .second
     condition := .comparison .gt (.count "shipment") (num 0.0)
     actions := [.forEach "shipment" none [
       .addProp "eta" (num (-1.0)),
       .branch (.comparison .lte (.prop "eta") (num 0.0))
         [.add "funds" (.arithmetic .mul [.prop "clips", .prop "price"]), .despawn] []]] },
   { id := "market_swing"
     timing := .second
     cooldown := some 15
     condition := .comparison .gte (.ref "clips") (num 200.0)
     actions := [.random [
       .mk 2.0 [.set "sentiment" (num 1.0)],
       .mk 1.0 [.set "sentiment" (num 1.5),
         .message "Clip futures are up. Demand surges." .success],
       .mk 1.0 [.set "sentiment" (num 0.7),
         .message "A staple craze cools the clip market." .warning]]] },
   { id := "wire_warning"
     condition := .all [.comparison .lt (.ref "wire") (num 1.0),
       .comparison .gt (.ref "clips") (num 0.0)]
     cooldown := some 100
     actions := [.message "Out of wire." .warning] },
   { id := "bulk_order"
     timing := .event
     event := some "bulk_order"
     actions := [.add "funds" (.param "amount"),
       .message "A bulk order pays out. Funds now \x7bfunds\x7d." .success] },
   { id := "clamp_price"
     actions := [.set "price" (.clamp (.ref "price") (num 0.01) (num 5.0))] }]

/-- What the funds can buy. -/
def projects : List Project :=
  [{ id := "wire_spool"
     name := "Wire spool"
     repeatable := true
     costs := [⟨"funds", .ref "wire_cost"⟩]
     effects := [.add "wire" (num 1000.0), .multiply "wire_cost" (num 1.05)] },
   { id := "autoclipper"
     name := "AutoClipper"
     repeatable := true
     trigger := .comparison .gte (.ref "clips") (num 50.0)
     costs := [⟨"funds", .ref "autoclipper_cost"⟩]
     effects := [.add "autoclippers" (num 1.0), .multiply "autoclipper_cost" (num 1.1)] },
   { id := "marketing"
     name := "Marketing campaign"
     repeatable := true
     maxUses := some 10
     trigger := .comparison .gte (.ref "clips") (num 500.0)
     costs := [⟨"funds", .arithmetic .mul [num 100.0, .pow (num 2.0) (.ref "marketing")]⟩]
     effects := [.add "marketing" (num 1.0),
       .message "Marketing level \x7bmarketing\x7d." .info] },
   { id := "improved_autoclippers"
     name := "Improved AutoClippers"
     trigger := .comparison .gte (.ref "autoclippers") (num 3.0)
     costs := [⟨"funds", num 75.0⟩]
     effects := [.multiply "clipper_rate" (num 1.25),
       .message "AutoClippers run 25% faster." .success] },
   { id := "trade_fair"
     name := "Trade fair booth"
     trigger := .comparison .gte (.ref "clips") (num 2000.0)
     costs := [⟨"funds", num 100.0⟩]
     effects := [.trigger "bulk_order" [("amount", num 250.0)]] }]

/-- What the player does by hand. -/
def functions : Table (List Action) := Table.ofList
  [("make_clip", [.branch (.comparison .gte (.ref "wire") (num 1.0))
      [.add "clips" (num 1.0), .add "unsold" (num 1.0), .add "wire" (num (-1.0))] []]),
   ("raise_price", [.set "price" (.arithmetic .mul [.ref "price", num 1.1])]),
   ("lower_price", [.set "price" (.arithmetic .mul [.ref "price", num 0.9])])]

end Paperclips

open Paperclips in
/-- The game. -/
def paperclips : Game where
  identity := { id := "paperclips", name := "Paperclips" }
  config := { maxMessages := 20, seed := 2024 }
  declarations
  phases
  rules
  projects
  functions

end IdleGame
