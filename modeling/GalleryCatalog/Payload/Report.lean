import GalleryCatalog.Payload.Violation

/-!
# Unmodeled keys

A key of no known meaning is reported once, with the first record that carries it.
A record whose keys have all been reported gives no report.
-/

set_option autoImplicit false

namespace GalleryCatalog.Payload

/-- The keys of a carrier that have not been reported. -/
def newKeys (reported : List String) (c : Carrier) : List String :=
  c.keys.filter fun key => !reported.contains key

/-- The reports of a list of carriers, and all keys reported by then. -/
def report : List String → List Carrier → List Carrier × List String
  | reported, [] => ([], reported)
  | reported, c :: cs =>
    let keys := newKeys reported c
    let later := report (reported ++ keys) cs
    (if keys = [] then later.1 else { c with keys := keys } :: later.1, later.2)

end GalleryCatalog.Payload
