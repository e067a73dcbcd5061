import RelayRamp.Routing.Rule
import RelayRamp.Warmup.Phase

/-!
# Seed data

What an empty store is filled with: a ramp of four phases, and pacing rules for the large mailbox providers
with a catch-all at the end.
-/
namespace RelayRamp.Seed

open RelayRamp.Routing RelayRamp.Warmup

def phases : List WarmupPhase :=
  [ ⟨0, "Weeks 1-2", 14, ⟨20, 500, 10⟩⟩,
    ⟨1, "Weeks 3-4", 14, ⟨50, 2000, 25⟩⟩,
    ⟨2, "Weeks 5-6", 14, ⟨100, 5000, 50⟩⟩,
    ⟨3, "Established", 7, ⟨500, 50000, 200⟩⟩ ]

def rule (pattern transport : String) (concurrency delay : Nat) (note : String) : RuleDraft :=
  ⟨pattern, ⟨transport⟩, ⟨concurrency, delay⟩, true, some note⟩

def rules : List RuleDraft :=
  [ rule "gmail.com" "gmail_throttled" 3 3 "Google Mail",
    rule "googlemail.com" "gmail_throttled" 3 3 "Google Mail (alt)",
    rule "outlook.com" "outlook_throttled" 2 5 "Microsoft Outlook",
    rule "hotmail.com" "outlook_throttled" 2 5 "Microsoft Hotmail",
    rule "live.com" "outlook_throttled" 2 5 "Microsoft Live",
    rule "yahoo.com" "yahoo_throttled" 3 3 "Yahoo Mail",
    rule "yahoo.de" "yahoo_throttled" 3 3 "Yahoo Mail DE",
    rule "*" "default_throttled" 5 1 "Standard" ]

end RelayRamp.Seed
