import FleetPosture.Remote.Launch
import FleetPosture.Text.Pieces

/-!
The commands that an inventory runs on a host.
-/

namespace FleetPosture.Inventory

def processTable : String :=
  "for d in /proc/[0-9]*; do pid=$\x7bd#/proc/\x7d; user=$(stat -c %U \"$d\" " ++
    "2>/dev/null) || continue; comm=$(cat \"$d/comm\" 2>/dev/null) || continue; " ++
    "cmd=$(base64 -w0 \"$d/cmdline\" 2>/dev/null) || continue; env=$(base64 -w0 " ++
    "\"$d/environ\" 2>/dev/null); printf '%s\\t%s\\t%s\\t%s\\t%s\\n' \"$pid\" " ++
    "\"$user\" \"$comm\" \"$cmd\" \"$env\"; done"

def lsof : String := "lsof -nP -i -FpcPnT"
def netstat : String := "netstat -tunap"

def excludedPaths : List String :=
  ["/proc", "/sys", "/dev", "/run", "/var/run", "/var/lib/docker/overlay2"]

def findFiles (extraExclusions : List String) : String :=
  let prunes := (excludedPaths ++ extraExclusions).map fun p => "-path " ++ Remote.shellQuoted p
  "find / \\( " ++ Text.join " -o " prunes ++
    " \\) -prune -o -type f -printf '%m\\t%p\\n' 2>/dev/null"

end FleetPosture.Inventory
