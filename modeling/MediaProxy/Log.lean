import MediaProxy.Error

/-!
This module contains the log of a process, of which there is only one.
-/

namespace MediaProxy

structure Log where
  installed : Bool := false
  deriving DecidableEq, Repr

def Log.install (log : Log) : Except Error Unit × Log :=
  if log.installed then (.error (.config "Failed to install subscriber"), log)
  else (.ok (), { log with installed := true })

theorem Log.install_install (log : Log) :
    log.install.2.install = (.error (.config "Failed to install subscriber"), log.install.2) := by
  unfold Log.install
  split <;> simp_all

end MediaProxy
