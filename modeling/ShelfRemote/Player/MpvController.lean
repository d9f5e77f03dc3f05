import Mathlib.Data.Rat.Defs

/-! The libmpv wrapper.

What it asks of libmpv is written down as a list of commands, newest first. What
libmpv reports comes back as events. Whether the user asked for a pause
(`paused`) is recorded when he asks; whether audio comes out (`playing`) follows
from three reported properties. -/
namespace ShelfRemote.Player

/-- A URL to play, labelled with the index of its track. -/
structure Entry where
  url : String
  track : Nat
  deriving DecidableEq

inductive Command where
  | setHttpHeaders (headers : String)
  /-- `loadfile`, which replaces the playlist. -/
  | replace (entry : Entry)
  /-- `loadfile`, to the end of the playlist. -/
  | append (entry : Entry)
  | seek (seconds : Rat)
  | stop
  | setPause (flag : Bool)
  | setSpeed (speed : Rat)
  | setVolume (percent : Rat)
  deriving DecidableEq

inductive EndReason where
  | eof
  | error (message : String)
  /-- Stopped, or replaced by another file. -/
  | other
  deriving DecidableEq

inductive MpvEvent where
  | timePos (seconds : Rat)
  | duration (seconds : Rat)
  | pause (flag : Bool)
  | coreIdle (flag : Bool)
  | pausedForCache (flag : Bool)
  | fileLoaded
  | endFile (reason : EndReason)
  deriving DecidableEq

structure MpvController where
  position : Rat := 0
  duration : Rat := 0
  speed : Rat := 1
  volume : Rat := 100
  pendingSeek : Rat := 0
  paused : Bool := false
  coreIdle : Bool := true
  pausedForCache : Bool := false
  playing : Bool := false
  /-- What libmpv was told, newest first. -/
  commands : List Command := []

namespace MpvController

def command (m : MpvController) (c : Command) : MpvController := {m with commands := c :: m.commands}

def setHttpHeaders (m : MpvController) (headers : String) : MpvController :=
  m.command (.setHttpHeaders headers)

/-- The request is recorded at once; the property event confirms it. -/
def requestPaused (m : MpvController) (paused : Bool) : MpvController :=
  {m.command (.setPause paused) with paused}

def play (m : MpvController) : MpvController := m.requestPaused false

def pause (m : MpvController) : MpvController := m.requestPaused true

def stop (m : MpvController) : MpvController := m.command .stop

def seekAbsolute (m : MpvController) (seconds : Rat) : MpvController := m.command (.seek seconds)

def setSpeed (m : MpvController) (speed : Rat) : MpvController := {m.command (.setSpeed speed) with speed}

def setVolume (m : MpvController) (percent : Rat) : MpvController :=
  {m.command (.setVolume percent) with volume := percent}

/-- The first URL replaces the playlist and the others are queued behind it. -/
def loadPlaylist (m : MpvController) (entries : List Entry) (authHeader : String)
    (startSeconds : Rat) : MpvController :=
  match entries with
  | [] => m
  | first :: rest =>
    let m := {(m.setHttpHeaders authHeader).command (.replace first) with pendingSeek := startSeconds}
    (rest.foldl (fun m entry => m.command (.append entry)) m).play

/-- What `playing` is to be. -/
def effective (m : MpvController) : Bool := !m.paused && !m.coreIdle && !m.pausedForCache

def updatePlaying (m : MpvController) : MpvController := {m with playing := m.effective}

/-- What an event changes here. -/
def handleEvent (m : MpvController) : MpvEvent → MpvController
  | .timePos seconds => {m with position := seconds}
  | .duration seconds => {m with duration := seconds}
  | .pause flag => {m with paused := flag}
  | .coreIdle flag => {m with coreIdle := flag}
  | .pausedForCache flag => {m with pausedForCache := flag}
  | .fileLoaded => if 0 < m.pendingSeek then {m.seekAbsolute m.pendingSeek with pendingSeek := 0} else m
  | .endFile _ => m

end MpvController

end ShelfRemote.Player
