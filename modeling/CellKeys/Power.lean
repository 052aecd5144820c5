-- Mathlib brings another way to raise naturals to a power; the one of the core library is meant in
-- every module, whatever it imports.
attribute [instance (high), default_instance (high + 1)] instPowNat
