namespace VoiceCall.Audio

def sampleRate : Nat := 48000

def channels : Nat := 2

/-- Samples per channel in one capture period of ten milliseconds. -/
def periodFrames : Nat := 480

/-- Interleaved samples in one capture period. -/
def periodLength : Nat := 960

/-- Samples per channel in the longest Opus packet. -/
def maxPacketFrames : Nat := 5760

/-- Bytes of the largest Opus frame that is produced or accepted. -/
def maxFrameBytes : Nat := 1275

/-- Interleaved samples per millisecond. -/
def samplesPerMilli : Nat := 96

/-- Whole milliseconds in a count of interleaved samples, kept in 32 bits. -/
def millisOfSamples (count : Nat) : UInt32 :=
  UInt32.ofNat (count / samplesPerMilli)

def samplesOfMillis (millis : UInt32) : Nat :=
  millis.toNat * samplesPerMilli

theorem periodLength_eq : periodLength = periodFrames * channels := rfl

end VoiceCall.Audio
