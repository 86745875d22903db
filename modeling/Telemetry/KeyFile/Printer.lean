import Telemetry.KeyFile.Basic

namespace Telemetry.KeyFile

def renderEntry (e : List Char × List Char) : List Char := e.1 ++ '=' :: e.2 ++ ['\n']

def renderGroup (g : List Char × Index (List Char) (List Char)) : List Char :=
  '[' :: g.1 ++ [']', '\n'] ++ g.2.entries.flatMap renderEntry

def render (f : KeyFile) : List Char :=
  (f.groups.entries.map renderGroup).intersperse ['\n'] |>.flatten

end Telemetry.KeyFile
