import Mathlib

/-!
# Clock values

Durations and instants are whole nanoseconds.
-/

namespace AukiSdk.Net

abbrev Duration := ℕ

abbrev Instant := ℕ

/-- `chrono::DateTime<Utc>`. -/
abbrev DateTime := ℤ

def nanosPerSecond : ℕ := 1000000000

def Duration.fromSecs (seconds : ℕ) : Duration := seconds * nanosPerSecond

def Duration.asSecs (duration : Duration) : ℕ := duration / nanosPerSecond

def Duration.subsecNanos (duration : Duration) : ℕ := duration % nanosPerSecond

/-- `Instant::duration_since`: an earlier instant gives zero. -/
def Instant.durationSince (later earlier : Instant) : Duration := later - earlier

end AukiSdk.Net
