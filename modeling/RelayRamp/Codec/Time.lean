import RelayRamp.Json.Basic
import RelayRamp.Time.Rfc3339
import RelayRamp.Time.Window

/-!
# Instants and counter buckets as JSON

Stamps are RFC 3339 strings; a stamp without such a text is null.
-/
namespace RelayRamp.Time

def Stamp.toJson (t : Stamp) : Json := .option .str (Rfc3339.render t)

def Stamp.ofJson? (j : Json) : Option Stamp := j.asString? >>= Rfc3339.parse

def WindowKind.toJson (kind : WindowKind) : Json := .str kind.label

def WindowKind.ofJson? (j : Json) : Option WindowKind := j.asVariant? >>= WindowKind.ofLabel?

def CounterBucket.toJson (b : CounterBucket) : Json :=
  .obj [("kind", b.kind.toJson), ("window_start", b.windowStart.toJson), ("count", .nat b.count)]

def CounterBucket.ofJson? (j : Json) : Option CounterBucket := do
  let [kind, start, count] ← j.cells ["kind", "window_start", "count"] | none
  pure
    { kind := ← kind.required WindowKind.ofJson?
      windowStart := ← start.required Stamp.ofJson?
      count := ← count.required Json.asLong? }

def CounterReading.toJson (r : CounterReading) : Json :=
  .obj [("hour", .nat r.hour), ("day", .nat r.day)]

def CounterReading.ofJson? (j : Json) : Option CounterReading := do
  let [hour, day] ← j.cells ["hour", "day"] | none
  pure ⟨← hour.required Json.asLong?, ← day.required Json.asLong?⟩

end RelayRamp.Time
