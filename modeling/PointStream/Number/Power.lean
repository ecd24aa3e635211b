/-!
# Powers

A library of algebra has a power of its own for numbers, equal to that of the language. Here a power
is that of the language everywhere, so that what is defined without such a library means the same
where it is reasoned about with one.
-/

attribute [instance (1100)] instPowNat
attribute [default_instance 20000] instPowNat
