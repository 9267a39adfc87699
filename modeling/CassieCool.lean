import CassieCool.Port
import CassieCool.Worker.Basic
import CassieCool.Worker.Accept
import CassieCool.Worker.Cancel
import CassieCool.Worker.Channel
import CassieCool.Worker.Lifecycle
import CassieCool.Gateway.Basic
import CassieCool.Gateway.Workers
import CassieCool.Gateway.Ports
import CassieCool.Proxy
import CassieCool.Code.Paths
import CassieCool.Code.Walk
import CassieCool.Code.FileTree
import CassieCool.Gateway.Runtimes
import CassieCool.Gateway.Threads
