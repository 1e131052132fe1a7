import WorkspaceRuntime.Credentials.Generations
import WorkspaceRuntime.Daemon.Epochs
import WorkspaceRuntime.Daemon.Replacement
import WorkspaceRuntime.Deployment.Recovery
import WorkspaceRuntime.Deployment.TaskPage
import WorkspaceRuntime.Outputs.Lifecycle
import WorkspaceRuntime.Paging.Collections
import WorkspaceRuntime.Paging.Events
import WorkspaceRuntime.Project.Agreement
import WorkspaceRuntime.Project.Spelling
import WorkspaceRuntime.Properties.Admission
import WorkspaceRuntime.Properties.Delegation
import WorkspaceRuntime.Properties.Dependents
import WorkspaceRuntime.Properties.Expiry
import WorkspaceRuntime.Properties.Holdings
import WorkspaceRuntime.Properties.OneShot
import WorkspaceRuntime.Properties.OwnedStops
import WorkspaceRuntime.Properties.PinnedDefinition
import WorkspaceRuntime.Properties.ProviderUnknown
import WorkspaceRuntime.Properties.Restart
import WorkspaceRuntime.Properties.Terminal
import WorkspaceRuntime.Service.Sequence
import WorkspaceRuntime.Timeline.Versions
